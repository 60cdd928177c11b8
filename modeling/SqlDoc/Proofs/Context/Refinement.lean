/-
# Resolving statement by statement makes the resolution

Going through the statements with a resolver leaves the contexts, the records, the units and the
reports of the resolution of the file, and with each context the numbers of those inside it
(`resolveAll_eq`). Statements that end no unit get their exceptions when the file ends.

Key definitions: `statementRows`, `filePending`.
Key theorems: `resolveTree_eq`, `foldl_resolveTree`, `resolveAll_eq`, `map_context_statementRows`.
-/
import SqlDoc.Proofs.Context.Statements

namespace SqlDoc

/-! ### Statements and what they leave to the end of the file -/

/-- The rows of the contexts of statements, if the first has number `next`. Those of statements that
end no unit are changed by `late`. -/
def statementRows (late : ContextRow → ContextRow) (warnOrphans : Bool) (next : Nat) :
    List SyntaxTree → List ContextRow
  | [] => []
  | t :: more =>
    let f := (resolveStatement warnOrphans next t).1
    (f.rows none next).map (if endsUnit t.kind then id else late)
      ++ statementRows late warnOrphans (next + f.contextCount) more

/-- What statements leave to be done at the end of the file, if the first context has number
`next`. -/
def filePending (next : Nat) : List SyntaxTree → List PendingThrows
  | [] => []
  | t :: more =>
    let f := DocForest.ofStatement t
    (if endsUnit t.kind then [] else f.pending next) ++ filePending (next + f.contextCount) more

theorem contextCount_resolveStatement (warnOrphans : Bool) (next : Nat) (t : SyntaxTree) :
    (resolveStatement warnOrphans next t).1.contextCount = (DocForest.ofStatement t).contextCount :=
  DocForest.contextCount_bind ..

/-- The contexts of the rows are those of the resolution. -/
theorem map_context_statementRows (warnOrphans : Bool) (statement next : Nat)
    (trees : List SyntaxTree) :
    (statementRows id warnOrphans next trees).map (·.context) =
      (resolveFrom warnOrphans statement next trees).1.contexts.toList := by
  induction trees generalizing statement next with
  | nil => rfl
  | cons t more ih =>
    rw [statementRows, ite_self, List.map_id, List.map_append, DocForest.map_context_rows,
      ih (statement + 1)]
    rfl

/-- The scope in which the tags of a statement are bound, if its first context has number `next`. -/
def statementScope (warnOrphans : Bool) (next : Nat) (t : SyntaxTree) : BindingScope where
  exceptions :=
    match DocForest.ofStatement t with
    | .node _ _ inside _ => inside.exceptions (next + 1)
    | .nil => []
  warnOrphans

theorem fst_resolveStatement (warnOrphans : Bool) (next : Nat) (t : SyntaxTree) :
    (resolveStatement warnOrphans next t).1 =
      ((DocForest.ofStatement t).bind (statementScope warnOrphans next t)).1 :=
  rfl

theorem snd_resolveStatement (warnOrphans : Bool) (next : Nat) (t : SyntaxTree) :
    (resolveStatement warnOrphans next t).2 =
      let reports := ((DocForest.ofStatement t).bind (statementScope warnOrphans next t)).2
      if endsUnit t.kind then { now := reports.now ++ reports.late } else reports :=
  rfl

/-- Parameters and fields are no exceptions. -/
theorem DocForest.exceptions_ofLeaves (owner : String) (leaves : List (Nat × SyntaxTree))
    (next : Nat) : (ofLeaves owner leaves).exceptions next = [] := by
  induction leaves generalizing next with
  | nil => rfl
  | cons first more ih =>
    obtain ⟨id, t⟩ := first
    unfold ofLeaves
    split
    · cases hcontext : leafContext? owner t with
      | none => exact ih _
      | some c =>
        have hcodes : c.codes? = none := by
          unfold leafContext? at hcontext
          dsimp only at hcontext
          split at hcontext <;> cases hcontext <;> rfl
        rw [exceptions_some, hcodes, ih]
        rfl
    · exact ih next

/-- Only packages and object types declare exceptions. -/
theorem exceptions_statementScope {t : SyntaxTree} (hkind : endsUnit t.kind = false)
    (warnOrphans : Bool) (next : Nat) : (statementScope warnOrphans next t).exceptions = [] := by
  have hparameters (owner : String) (next : Nat) :
      (DocForest.ofParameters owner 0 t).exceptions next = [] := by
    unfold DocForest.ofParameters
    split
    · exact DocForest.exceptions_ofLeaves ..
    · rfl
  unfold statementScope DocForest.ofStatement
  cases hstatement : t.kind with
  | createUnit unit =>
    cases unit with
    | package | objectType => rw [hstatement] at hkind; exact absurd hkind Bool.noConfusion
    | packageBody | typeBody => rfl
    | procedure | function => exact hparameters ..
  | _ => rfl

namespace Resolver

variable {r : Resolver} {t : SyntaxTree} {file : UnitScope}

/-- One more statement is resolved. -/
theorem resolveTree_eq (ht : t.Fits) (hfile : r.scopes = [file])
    (hexceptions : file.exceptions = []) (hdeclared : file.declared = []) :
    let n := r.table.rows.length
    let out := resolveStatement r.warnOrphans n t
    r.resolveTree t =
      { r with
        table := {
          rows := r.table.rows ++
            (out.1.rows none n).map (if endsUnit t.kind then id else ContextRow.withoutThrows)
          comments := r.table.comments ++ out.1.records r.statement n
          units := r.table.units ++ if out.1.contextCount = 0 then [] else [n] }
        statement := r.statement + 1
        scopes := [file.await (if endsUnit t.kind then [] else
          (DocForest.ofStatement t).pending n)]
        reports := r.reports ++ out.2.now } := by
  intro n out
  let scope := statementScope r.warnOrphans n t
  have hrecords : out.1.records r.statement n = (DocForest.ofStatement t).records r.statement n :=
    DocForest.records_bind scope ..
  have hcount : out.1.contextCount = (DocForest.ofStatement t).contextCount :=
    contextCount_resolveStatement ..
  cases hkind : endsUnit t.kind with
  | false =>
    have hnow : out.2.now = ((DocForest.ofStatement t).bind scope).2.now := by
      show (resolveStatement ..).2.now = _
      rw [snd_resolveStatement, hkind]
      rfl
    have hunits : (if (DocForest.ofStatement t).contextCount = 0 then none else some n).toList =
        if (DocForest.ofStatement t).contextCount = 0 then [] else [n] := by
      split <;> rfl
    have hwarn : r.warnOrphans = scope.warnOrphans := rfl
    rw [resolveTree, visit_statement ht hkind hwarn, hrecords, hcount, hnow, ← hunits]
    unfold visited
    rw [hfile]
    rfl
  | true =>
    obtain ⟨unit, hunit, hcreate⟩ : ∃ unit, (unit = .package ∨ unit = .objectType) ∧
        t.kind = .createUnit unit := by
      rcases Bool.or_eq_true_iff.1 hkind with h | h
      · exact ⟨_, .inl rfl, of_decide_eq_true h⟩
      · exact ⟨_, .inr rfl, of_decide_eq_true h⟩
    have hothers : ∀ s ∈ r.scopes, s.exceptions = [] ∧ s.declared = [] := by
      rw [hfile]
      exact fun s hs => List.mem_singleton.1 hs ▸ ⟨hexceptions, hdeclared⟩
    obtain ⟨hf, hvisit⟩ := visit_unit ht hcreate hunit hothers
    have hscope : scope =
        { exceptions := (DocForest.ofUnit t).exceptions (n + 1)
          warnOrphans := r.warnOrphans } := by
      unfold scope statementScope
      rw [hf]
    have hnow : out.2.now = ((DocForest.ofStatement t).bind scope).2.now ++
        ((DocForest.ofStatement t).bind scope).2.late := by
      show (resolveStatement ..).2.now = _
      rw [snd_resolveStatement, hkind]
      rfl
    have hsome : (DocForest.ofStatement t).contextCount ≠ 0 := by
      rw [hf]
      simp [DocForest.contextCount]
    have hout : out.1 = ((DocForest.ofStatement t).bind scope).1 := rfl
    have hawait : file.await [] = file := by rw [UnitScope.await, List.append_nil]
    rw [resolveTree, hvisit, hrecords, hcount, if_neg hsome, hnow, hout, hscope, hf, if_pos rfl,
      if_pos rfl, List.map_id, hawait, ← hfile, ← List.append_assoc]
    rfl

/-- The statements of a file are resolved one after the other. -/
theorem foldl_resolveTree {trees : List SyntaxTree} (htrees : ∀ t ∈ trees, t.Fits)
    (hfile : r.scopes = [file]) (hexceptions : file.exceptions = [])
    (hdeclared : file.declared = []) :
    let n := r.table.rows.length
    let out := resolveFrom r.warnOrphans r.statement n trees
    trees.foldl resolveTree r =
      { r with
        table := {
          rows := r.table.rows ++ statementRows ContextRow.withoutThrows r.warnOrphans n trees
          comments := r.table.comments ++ out.1.comments
          units := r.table.units ++ out.1.units }
        statement := r.statement + trees.length
        scopes := [file.await (filePending n trees)]
        reports := r.reports ++ out.2.now } := by
  induction trees generalizing r file with
  | nil =>
    have hawait : file.await [] = file := by rw [UnitScope.await, List.append_nil]
    simp [statementRows, filePending, resolveFrom, hawait, ← hfile]
  | cons t more ih =>
    obtain ⟨ht, hmore⟩ := List.forall_mem_cons.1 htrees
    have hcount := contextCount_resolveStatement r.warnOrphans r.table.rows.length t
    have hawait (p q : List PendingThrows) : (file.await p).await q = file.await (p ++ q) := by
      simp [UnitScope.await]
    let later := file.await (if endsUnit t.kind then [] else
      (DocForest.ofStatement t).pending r.table.rows.length)
    rw [List.foldl_cons, resolveTree_eq ht hfile hexceptions hdeclared,
      ih hmore rfl (show later.exceptions = [] from hexceptions) hdeclared]
    unfold later
    simp only [List.length_append, List.length_map, DocForest.length_rows, hawait]
    simp [statementRows, filePending, resolveFrom, hcount, Nat.add_comm, Nat.add_left_comm]

/-- The scope of the file ends. -/
theorem finish_eq (hfile : r.scopes = [file]) (hbindings : file.bindings = [])
    (hexceptions : file.exceptions = []) (hdeclared : file.declared = []) :
    r.finish =
      { r with
        table := { r.table with
          rows := (file.pending.map fun p => (p.context, p.doc [])).foldl raiseIn r.table.rows }
        scopes := []
        reports := r.reports ++ file.pending.flatMap
          (PendingThrows.reports { exceptions := [], warnOrphans := r.warnOrphans }) } := by
  let last : Resolver := { r with scopes := [] }
  have htarget (name : Name) : last.throwsTarget file name = SqlDoc.throwsTarget [] name := by
    unfold throwsTarget findException? SqlDoc.throwsTarget
    simp only [List.findSome?_cons, hexceptions, hdeclared]
    rfl
  let known : BindingScope := { exceptions := [], warnOrphans := r.warnOrphans }
  have hwarn : last.warnOrphans = known.warnOrphans := rfl
  have hclose := foldl_bindThrows hwarn htarget file.pending
  rw [finish, hfile, closeScopes, closeScopes, closeScope, hbindings, List.foldl_nil]
  exact congrArg (fun r : Resolver => { r with scopes := [] }) hclose

end Resolver

/-! ### The end of the file -/

/-- The exceptions that wait for the end of the file complete the rows of the statements. -/
theorem foldl_filePending (warnOrphans : Bool) (trees : List SyntaxTree) {next : Nat}
    (before : List ContextRow) (hbefore : before.length = next) :
    ((filePending next trees).map fun p => (p.context, p.doc [])).foldl raiseIn
        (before ++ statementRows ContextRow.withoutThrows warnOrphans next trees) =
      before ++ statementRows id warnOrphans next trees := by
  induction trees generalizing next before with
  | nil => rfl
  | cons t more ih =>
    let f := (resolveStatement warnOrphans next t).1
    have hcount : f.contextCount = (DocForest.ofStatement t).contextCount :=
      contextCount_resolveStatement ..
    have hlength : (before ++ f.rows none next).length =
        next + (DocForest.ofStatement t).contextCount := by
      rw [List.length_append, DocForest.length_rows, hbefore, hcount]
    have hmore := ih (before ++ f.rows none next) hlength
    rw [statementRows, statementRows, filePending, ite_self, List.map_id, List.map_append,
      List.foldl_append, contextCount_resolveStatement, ← List.append_assoc, ← List.append_assoc]
    cases hkind : endsUnit t.kind with
    | true =>
      rw [if_pos rfl, if_pos rfl, List.map_id, List.map_nil, List.foldl_nil]
      exact hmore
    | false =>
      have hfill := f.foldl_raised none before hbefore
        (statementRows ContextRow.withoutThrows warnOrphans (next + f.contextCount) more)
      have hraised : f.raised next =
          ((DocForest.ofStatement t).pending next).map fun p => (p.context, p.doc []) := by
        rw [← exceptions_statementScope hkind warnOrphans next]
        exact DocForest.raised_bind (DocForest.throws_ofStatement t) next
      rw [hraised, hcount] at hfill
      exact (congrArg (List.foldl raiseIn · _) hfill).trans hmore

/-- What is reported at the end of the file is reported about the tags that wait for it. -/
theorem late_resolveFrom (warnOrphans : Bool) (statement next : Nat) (trees : List SyntaxTree) :
    (resolveFrom warnOrphans statement next trees).2.late =
      (filePending next trees).flatMap
        (PendingThrows.reports { exceptions := [], warnOrphans }) := by
  induction trees generalizing statement next with
  | nil => rfl
  | cons t more ih =>
    have hlate : (resolveStatement warnOrphans next t).2.late =
        (if endsUnit t.kind then [] else (DocForest.ofStatement t).pending next).flatMap
          (PendingThrows.reports { exceptions := [], warnOrphans }) := by
      rw [snd_resolveStatement]
      cases hkind : endsUnit t.kind with
      | true => rfl
      | false =>
        have hscope : statementScope warnOrphans next t = { exceptions := [], warnOrphans } := by
          rw [← exceptions_statementScope hkind warnOrphans next]
          rfl
        rw [hscope]
        exact DocForest.late_bind ..
    rw [filePending, List.flatMap_append, ← hlate, ← contextCount_resolveStatement warnOrphans next,
      ← ih (statement + 1)]
    rfl

/-- Resolving statement by statement makes the resolution of the file. -/
theorem resolveAll_eq {trees : List SyntaxTree} (htrees : ∀ t ∈ trees, t.Fits)
    (warnOrphans : Bool) :
    resolveAll trees warnOrphans =
      ({ rows := statementRows id warnOrphans 0 trees
         comments := (resolve trees warnOrphans).1.comments
         units := (resolve trees warnOrphans).1.units }, (resolve trees warnOrphans).2) := by
  let out := resolveFrom warnOrphans 0 0 trees
  have hrun := Resolver.foldl_resolveTree (r := { warnOrphans }) htrees rfl rfl rfl
  have hfinish := Resolver.finish_eq (r := trees.foldl Resolver.resolveTree { warnOrphans })
    (congrArg Resolver.scopes hrun) rfl rfl rfl
  have hresult : resolveAll trees warnOrphans =
      ({ rows := ((filePending 0 trees).map fun p => (p.context, p.doc [])).foldl raiseIn
          (statementRows ContextRow.withoutThrows warnOrphans 0 trees)
         comments := out.1.comments
         units := out.1.units },
        out.2.now ++ (filePending 0 trees).flatMap
          (PendingThrows.reports { exceptions := [], warnOrphans })) := by
    rw [resolveAll, hfinish, hrun]
    rfl
  have hempty : ([] : List ContextRow).length = 0 := rfl
  have hfill := foldl_filePending warnOrphans trees [] hempty
  rw [List.nil_append, List.nil_append] at hfill
  rw [hresult, hfill, ← late_resolveFrom warnOrphans 0 0 trees]
  rfl

end SqlDoc

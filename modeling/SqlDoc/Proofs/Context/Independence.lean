/-
# Statements are documented independently

What a file documents is what its statements document one by one, with their numbers and those of
their contexts moved up by how many there are before. What is reported is the same but for the order
(`resolveAll_concat`). So neither the id of an overload nor what a name in a `@throws` tag stands
for depends on another statement.

Key definitions: `ContextTable.shift`, `ContextTable.concat`.
Key theorems: `DocForest.bind_shift`, `resolveStatement_shift`, `resolveAll_concat`.
-/
import SqlDoc.Proofs.Context.Refinement

namespace SqlDoc

/-! ### Moving numbers up -/

/-- The target if the numbers of contexts are higher by `k`. -/
def ThrowsTarget.shift (k : Nat) : ThrowsTarget → ThrowsTarget
  | declared id => declared (id + k)
  | predefined => predefined
  | errorCode => errorCode
  | unknown => unknown

def ThrowsDoc.shift (k : Nat) (d : ThrowsDoc) : ThrowsDoc :=
  { d with target := d.target.shift k }

/-- The context if the exceptions that it raises have numbers higher by `k`. -/
def Context.shiftThrows (k : Nat) (c : Context) : Context :=
  { c with throws := c.throws.map (.shift k) }

/-- The context if all numbers are higher by `k`. -/
def Context.shift (k : Nat) (c : Context) : Context :=
  { c.shiftThrows k with parent := c.parent.map (· + k) }

def ContextRow.shift (k : Nat) (row : ContextRow) : ContextRow where
  context := row.context.shift k
  children := row.children.map (· + k)
  members := row.members.map (· + k)

/-- The record if there are more statements and contexts before it. -/
def CommentRecord.shift (statements contexts : Nat) (c : CommentRecord) : CommentRecord :=
  { c with statement := c.statement + statements, context := c.context.map (· + contexts) }

namespace ContextTable

/-- The table if there are more statements and contexts before it. -/
def shift (statements contexts : Nat) (t : ContextTable) : ContextTable where
  rows := t.rows.map (.shift contexts)
  comments := t.comments.map (.shift statements contexts)
  units := t.units.map (· + contexts)

/-- One table after another. -/
def append (t u : ContextTable) : ContextTable where
  rows := t.rows ++ u.rows
  comments := t.comments ++ u.comments
  units := t.units ++ u.units

/-- The tables of statements one after the other, the first with `statements` statements and
`contexts` contexts before it. -/
def concat (statements contexts : Nat) : List ContextTable → ContextTable
  | [] => {}
  | t :: more =>
    (t.shift statements contexts).append (concat (statements + 1) (contexts + t.rows.length) more)

end ContextTable

def DeclaredException.shift (k : Nat) (e : DeclaredException) : DeclaredException :=
  { e with id := e.id + k }

def BindingScope.shift (k : Nat) (scope : BindingScope) : BindingScope :=
  { scope with exceptions := scope.exceptions.map (.shift k) }

/-- What a name stands for has the number of the exception. -/
theorem throwsTarget_shift (k : Nat) (exceptions : List DeclaredException) (name : Name) :
    throwsTarget (exceptions.map (.shift k)) name = (throwsTarget exceptions name).shift k := by
  have hfind (p : DeclaredException → Bool) (hp : ∀ e : DeclaredException, p (e.shift k) = p e) :
      (exceptions.map (DeclaredException.shift k)).find? p =
        (exceptions.find? p).map (.shift k) := by
    have hsame : p ∘ DeclaredException.shift k = p := funext hp
    rw [List.find?_map, hsame]
  unfold throwsTarget
  rw [hfind _ fun _ => rfl]
  cases exceptions.find? fun e => e.name = name.last with
  | some e => rfl
  | none =>
    dsimp only [Option.map_none]
    cases errorCode? name.display with
    | none =>
      dsimp only
      split <;> rfl
    | some code =>
      dsimp only
      rw [hfind _ fun _ => rfl]
      cases exceptions.find? fun e => e.codes.any fun c => errorCode? c = some code <;> rfl

/-! ### Binding tags -/

theorem ParamDoc.apply_shiftThrows (doc : ParamDoc) (k : Nat) (c : Context) :
    doc.apply (c.shiftThrows k) = (doc.apply c).shiftThrows k := by
  unfold apply Context.shiftThrows
  cases c.detail <;> rfl

namespace Binding

/-- The binding if the exceptions have numbers higher by `k`. -/
def shift (k : Nat) (b : Binding) : Binding :=
  { b with owner := b.owner.shiftThrows k }

variable (k : Nat) (scope : BindingScope)

theorem orphan_shift (b : Binding) (t : Tag) (message : String) :
    (b.shift k).orphan (scope.shift k) t message = (b.orphan scope t message).shift k := by
  unfold orphan
  show (if scope.warnOrphans then _ else _) = _
  split <;> rfl

theorem addParam_shift (targets : ParamTargets) (b : Binding) (t : Tag) (name : Name)
    (doc : ParamDoc) :
    (b.shift k).addParam (scope.shift k) targets t name doc =
      (b.addParam scope targets t name doc).shift k := by
  unfold addParam
  show (if b.named.contains name.display then _ else _) = _
  split
  · rfl
  · show (if targets.names.any (·.sameBase name) then _ else _) = _
    dsimp only
    split
    · rfl
    · exact orphan_shift k scope { b with named := name.display :: b.named } t _

theorem addReturn_shift (b : Binding) (t : Tag) (type : Option String) :
    (b.shift k).addReturn (scope.shift k) t type = (b.addReturn scope t type).shift k := by
  have horphan := orphan_shift k scope { b with returned := true } t
  unfold addReturn
  show (if !b.owner.kind.isMethod then _ else if b.returned then _ else _) = _
  split
  · rfl
  · split
    · rfl
    · obtain ⟨⟨_, _, _, _, _, _, _, _, _, detail⟩, _⟩ := b
      cases detail with
      | method returns =>
        cases returns with
        | some returns => rfl
        | none => exact horphan _
      | _ => exact horphan _

theorem addThrows_shift (b : Binding) (t : Tag) (name : Name) :
    (b.shift k).addThrows (scope.shift k) t name = (b.addThrows scope t name).shift k := by
  have hunknown (target : ThrowsTarget) : target.shift k = .unknown ↔ target = .unknown := by
    cases target <;> simp [ThrowsTarget.shift]
  unfold addThrows BindingScope.shift shift Context.shiftThrows
  dsimp only
  rw [throwsTarget_shift, List.map_append]
  simp only [hunknown]
  rfl

/-- A tag says the same wherever the exceptions stand. -/
theorem addTag_shift (targets : Option ParamTargets) (b : Binding) (t : Tag) :
    (b.shift k).addTag (scope.shift k) targets t = (b.addTag scope targets t).shift k := by
  unfold addTag
  cases t.body with
  | description =>
    dsimp only
    unfold addDescription
    split <;> rfl
  | param name type default isOptional =>
    cases targets with
    | none => rfl
    | some targets =>
      cases name with
      | none => exact orphan_shift ..
      | some name => exact addParam_shift ..
  | returns type => exact addReturn_shift ..
  | throws name =>
    cases name with
    | none => exact orphan_shift ..
    | some name => exact addThrows_shift ..
  | link | visibility | generic => rfl

theorem bindTags_shift (c : Context) (inside : List Context) (tags : List Tag) :
    bindTags (scope.shift k) (c.shiftThrows k) (inside.map (.shiftThrows k)) tags =
      (bindTags scope c inside tags).shift k := by
  have htargets : (c.shiftThrows k).paramTargets? (inside.map (.shiftThrows k)) =
      c.paramTargets? inside := by
    unfold Context.paramTargets?
    rw [List.map_map, List.filter_map, List.map_map]
    rfl
  have hfold (b : Binding) :
      tags.foldl (addTag (scope.shift k) (c.paramTargets? inside)) (b.shift k) =
        (tags.foldl (addTag scope (c.paramTargets? inside)) b).shift k := by
    induction tags generalizing b with
    | nil => rfl
    | cons t tags ih => rw [List.foldl_cons, List.foldl_cons, addTag_shift, ih]
  have hfinish (b : Binding) : (b.shift k).finish = b.finish.shift k := by
    unfold finish
    show (if b.descriptions = [] then _ else _) = _
    split <;> rfl
  unfold bindTags
  rw [htargets, ← hfinish, ← hfold]
  rfl

end Binding

namespace DocForest

/-- The sites if the exceptions that their contexts raise have numbers higher by `k`. -/
def shift (k : Nat) : DocForest → DocForest
  | nil => nil
  | node site context inside rest =>
    node site (context.map (.shiftThrows k)) (inside.shift k) (rest.shift k)

variable (k : Nat)

theorem topContexts_shift (f : DocForest) :
    (f.shift k).topContexts = f.topContexts.map (.shiftThrows k) := by
  induction f with
  | nil => rfl
  | node _ context _ _ _ ih =>
    cases context <;> simp [shift, topContexts, ih]

@[simp] theorem contextCount_shift (f : DocForest) : (f.shift k).contextCount = f.contextCount := by
  induction f with
  | nil => rfl
  | node _ context _ _ ihinside ihrest =>
    cases context <;> simp [shift, contextCount, ihinside, ihrest]

theorem describeInside_shift (b : Binding) (c : Context) (f : DocForest) :
    (b.shift k).describeInside (c.shiftThrows k) (f.shift k) = (b.describeInside c f).shift k := by
  have hdescribe (doc : ParamDoc) (f : DocForest) :
      (f.shift k).describe (isTargetOf (c.shiftThrows k)) doc =
        (f.describe (isTargetOf c) doc).shift k := by
    induction f with
    | nil => rfl
    | node site context inside rest _ ih =>
      cases context with
      | none => simp only [shift, describe, Option.map_none, ih]
      | some d =>
        unfold describe
        show (if isTargetOf c d && d.name.sameBase doc.name then _ else _) = _
        split
        · simp only [shift, Option.map_some, doc.apply_shiftThrows]
        · rw [shift, ih]
          rfl
  exact Binding.describeInside_comm (g := (·.shift k)) rfl hdescribe f

/-- The tags say the same wherever the exceptions stand. -/
theorem bind_shift (scope : BindingScope) (f : DocForest) :
    (f.shift k).bind (scope.shift k) = ((f.bind scope).1.shift k, (f.bind scope).2) := by
  induction f with
  | nil => rfl
  | node site context inside rest ihinside ihrest =>
    cases context with
    | none =>
      rw [shift, Option.map_none, bind, ihinside, ihrest]
      rfl
    | some c =>
      rw [shift, Option.map_some, bind_some, bind_some, ihinside, ihrest]
      dsimp only
      rw [topContexts_shift, Binding.bindTags_shift, describeInside_shift]
      rfl

/-- Sites that raise nothing stay as they are. -/
theorem shift_eq_self {f : DocForest} (hf : f.All (·.throws = [])) : f.shift k = f := by
  induction f with
  | nil => rfl
  | node site context inside rest ihinside ihrest =>
    obtain ⟨hcontext, hinside, hrest⟩ := hf
    rw [shift, ihinside hinside, ihrest hrest]
    cases context with
    | none => rfl
    | some c =>
      have hc : c.shiftThrows k = c := by
        rw [Context.shiftThrows, hcontext c rfl, List.map_nil, ← hcontext c rfl]
      rw [Option.map_some, hc]

/-! ### Numbers of sites -/

theorem topIds_shift (f : DocForest) (next : Nat) :
    (f.shift k).topIds (next + k) = (f.topIds next).map (· + k) := by
  induction f generalizing next with
  | nil => rfl
  | node _ context inside rest _ ih =>
    have hnext : next + k + context.toList.length + inside.contextCount =
        next + context.toList.length + inside.contextCount + k := by omega
    unfold topIds at ih ⊢
    rw [tops, List.map_append, List.map_append, ← ih, shift, tops, List.map_append,
      contextCount_shift, ← hnext]
    cases context <;> rfl

theorem row_shift (c : Context) (parent : Option Nat) (ids : List Nat) :
    (c.shiftThrows k).row (parent.map (· + k)) (ids.map (· + k)) = (c.row parent ids).shift k := by
  unfold Context.row ContextRow.shift Context.shift Context.shiftThrows
  dsimp only
  split <;> rfl

theorem rows_shift (f : DocForest) (parent : Option Nat) (next : Nat) :
    (f.shift k).rows (parent.map (· + k)) (next + k) = (f.rows parent next).map (.shift k) := by
  induction f generalizing parent next with
  | nil => rfl
  | node _ context inside rest ihinside ihrest =>
    cases context with
    | none =>
      rw [shift, Option.map_none, rows, rows, contextCount_shift, List.map_append, ← ihinside,
        ← ihrest, Nat.add_right_comm]
    | some c =>
      have hnext : next + k + 1 = next + 1 + k := Nat.add_right_comm ..
      have hrest : next + 1 + k + inside.contextCount = next + 1 + inside.contextCount + k :=
        Nat.add_right_comm ..
      have hinside := ihinside (some next) (next + 1)
      rw [shift, Option.map_some, rows, rows, contextCount_shift, List.map_cons, List.map_append,
        ← hinside, ← ihrest, hnext, topIds_shift, row_shift, hrest]
      rfl

theorem records_shift (f : DocForest) (statement next statements : Nat) :
    (f.shift k).records (statement + statements) (next + k) =
      (f.records statement next).map (.shift statements k) := by
  induction f generalizing next with
  | nil => rfl
  | node _ context inside rest ihinside ihrest =>
    have hafter : next + k + context.toList.length = next + context.toList.length + k :=
      Nat.add_right_comm ..
    have hrest : next + context.toList.length + k + inside.contextCount =
        next + context.toList.length + inside.contextCount + k := Nat.add_right_comm ..
    rw [records, List.map_cons, List.map_append, ← ihinside, ← ihrest, shift, records,
      contextCount_shift, ← hrest, ← hafter]
    cases context <;> rfl

theorem exceptions_shift (f : DocForest) (next : Nat) :
    f.exceptions (next + k) = (f.exceptions next).map (.shift k) := by
  induction f generalizing next with
  | nil => rfl
  | node site context inside rest _ ih =>
    cases context with
    | none =>
      rw [exceptions, exceptions, List.map_append, ← ih, Nat.add_right_comm next k,
        Nat.add_right_comm _ k]
      rfl
    | some c =>
      rw [exceptions_some, exceptions_some, List.map_append, ← ih, Nat.add_right_comm next k,
        Nat.add_right_comm _ k]
      cases c.codes? <;> rfl

end DocForest

/-! ### Statements -/

theorem statementScope_shift (warnOrphans : Bool) (next : Nat) (t : SyntaxTree) :
    statementScope warnOrphans next t = (statementScope warnOrphans 0 t).shift next := by
  unfold statementScope BindingScope.shift
  cases DocForest.ofStatement t with
  | nil => rfl
  | node _ _ inside _ =>
    dsimp only
    rw [← DocForest.exceptions_shift, Nat.add_comm]

/-- A statement is resolved in the same way wherever it stands. -/
theorem resolveStatement_shift (warnOrphans : Bool) (next : Nat) (t : SyntaxTree) :
    resolveStatement warnOrphans next t =
      ((resolveStatement warnOrphans 0 t).1.shift next, (resolveStatement warnOrphans 0 t).2) := by
  have hbind := DocForest.bind_shift next (statementScope warnOrphans 0 t) (.ofStatement t)
  rw [DocForest.shift_eq_self next (DocForest.throws_ofStatement t),
    ← statementScope_shift] at hbind
  refine Prod.ext ?_ ?_
  · rw [fst_resolveStatement, hbind]
    rfl
  · rw [snd_resolveStatement, hbind]
    rfl

/-- The table of one statement. -/
theorem resolveAll_singleton {t : SyntaxTree} (ht : t.Fits) (warnOrphans : Bool) :
    let out := resolveStatement warnOrphans 0 t
    resolveAll [t] warnOrphans =
      ({ rows := out.1.rows none 0
         comments := out.1.records 0 0
         units := if out.1.contextCount = 0 then [] else [0] }, out.2.now ++ out.2.late) := by
  intro out
  have hfits : ∀ s ∈ [t], s.Fits := fun s hs => List.mem_singleton.1 hs ▸ ht
  have hrows : statementRows id warnOrphans 0 [t] = out.1.rows none 0 := by
    rw [statementRows, statementRows, ite_self, List.map_id, List.append_nil]
  have hcomments : (resolve [t] warnOrphans).1.comments = out.1.records 0 0 := List.append_nil _
  have hunits : (resolve [t] warnOrphans).1.units = if out.1.contextCount = 0 then [] else [0] :=
    List.append_nil _
  have hreports : (resolve [t] warnOrphans).2 = out.2.now ++ out.2.late := by
    show out.2.now ++ [] ++ (out.2.late ++ []) = _
    rw [List.append_nil, List.append_nil]
  rw [resolveAll_eq hfits, hrows, hcomments, hunits, hreports]

/-! ### Files -/

/-- The tables of statements, each resolved alone, one after the other. -/
theorem concat_eq {trees : List SyntaxTree} (htrees : ∀ t ∈ trees, t.Fits) (warnOrphans : Bool)
    (statement next : Nat) :
    ContextTable.concat statement next (trees.map fun t => (resolveAll [t] warnOrphans).1) =
      { rows := statementRows id warnOrphans next trees
        comments := (resolveFrom warnOrphans statement next trees).1.comments
        units := (resolveFrom warnOrphans statement next trees).1.units } := by
  induction trees generalizing statement next with
  | nil => rfl
  | cons t more ih =>
    obtain ⟨ht, hmore⟩ := List.forall_mem_cons.1 htrees
    let f := (resolveStatement warnOrphans 0 t).1
    have hshift : (resolveStatement warnOrphans next t).1 = f.shift next :=
      congrArg Prod.fst (resolveStatement_shift ..)
    have hrows : (f.shift next).rows none next = (f.rows none 0).map (.shift next) := by
      have h := f.rows_shift next none 0
      rwa [Nat.zero_add] at h
    have hrecords : (f.shift next).records statement next =
        (f.records 0 0).map (.shift statement next) := by
      have h := f.records_shift next 0 0 statement
      rwa [Nat.zero_add, Nat.zero_add] at h
    have hunits : (if f.contextCount = 0 then [] else [next]) =
        (if f.contextCount = 0 then [] else [0]).map (· + next) := by
      split
      · rfl
      · rw [List.map_singleton, Nat.zero_add]
    have htable : (resolveAll [t] warnOrphans).1 =
        { rows := f.rows none 0
          comments := f.records 0 0
          units := if f.contextCount = 0 then [] else [0] } :=
      congrArg Prod.fst (resolveAll_singleton ht warnOrphans)
    have hcount : (resolveStatement warnOrphans next t).1.contextCount = f.contextCount := by
      rw [hshift, DocForest.contextCount_shift]
    let rest := (resolveFrom warnOrphans (statement + 1)
      (next + (resolveStatement warnOrphans next t).1.contextCount) more).1
    have hcomments : (resolveFrom warnOrphans statement next (t :: more)).1.comments =
        (resolveStatement warnOrphans next t).1.records statement next ++ rest.comments := rfl
    have hall : (resolveFrom warnOrphans statement next (t :: more)).1.units =
        (if (resolveStatement warnOrphans next t).1.contextCount = 0 then [] else [next]) ++
          rest.units := rfl
    rw [List.map_cons, ContextTable.concat, htable, DocForest.length_rows, ih hmore, statementRows,
      ite_self, List.map_id, hcomments, hall]
    unfold rest
    rw [hcount, hunits, hshift, hrows, hrecords]
    rfl

/-- Together the statements report what each reports alone. -/
theorem perm_reports {trees : List SyntaxTree} (htrees : ∀ t ∈ trees, t.Fits) (warnOrphans : Bool)
    (statement next : Nat) :
    let reports := (resolveFrom warnOrphans statement next trees).2
    (reports.now ++ reports.late).Perm (trees.flatMap fun t => (resolveAll [t] warnOrphans).2) := by
  induction trees generalizing statement next with
  | nil => exact .nil
  | cons t more ih =>
    obtain ⟨ht, hmore⟩ := List.forall_mem_cons.1 htrees
    intro reports
    let here := (resolveStatement warnOrphans 0 t).2
    let after := (resolveFrom warnOrphans (statement + 1)
      (next + (resolveStatement warnOrphans next t).1.contextCount) more).2
    have hreports : reports = here ++ after := by
      have hhere : (resolveStatement warnOrphans next t).2 = here := by
        rw [resolveStatement_shift]
      rw [← hhere]
      rfl
    have hone : (resolveAll [t] warnOrphans).2 = here.now ++ here.late :=
      congrArg Prod.snd (resolveAll_singleton ht warnOrphans)
    rw [hreports, Reports.now_append, Reports.late_append, List.flatMap_cons, hone]
    -- What the others report at once comes before what this one reports late.
    have hswap : (here.now ++ after.now ++ (here.late ++ after.late)).Perm
        (here.now ++ here.late ++ (after.now ++ after.late)) := by
      rw [List.append_assoc, List.append_assoc]
      exact (List.perm_append_comm_assoc ..).append_left _
    exact hswap.trans ((ih hmore ..).append_left _)

/-- A file documents what its statements document one by one, with numbers moved up, and reports
what they report. -/
theorem resolveAll_concat (source : String) (filename : Option String) (warnOrphans : Bool) :
    let trees := (parseSql source filename).trees
    (resolveAll trees warnOrphans).1 =
        .concat 0 0 (trees.map fun t => (resolveAll [t] warnOrphans).1) ∧
      (resolveAll trees warnOrphans).2.Perm
        (trees.flatMap fun t => (resolveAll [t] warnOrphans).2) := by
  intro trees
  have hfits : ∀ t ∈ trees, t.Fits := parseSql_fits source filename
  rw [resolveAll_eq hfits, concat_eq hfits]
  exact ⟨rfl, perm_reports hfits warnOrphans 0 0⟩

end SqlDoc

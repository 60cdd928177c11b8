/-
# Places do not decide what is documented

What a file documents is made of the texts of its tokens. Their places only come to stand in the
spans of contexts, in the spans of tags and in the reports. So files whose trees differ in nothing
but places document the same but for places, and are told the same (`resolve_moved`).

Key definitions: `Context.unplaced`, `Diagnostic.unplaced`, `DocForest.unplaced`.
Key theorems: `DocForest.ofStatement_unplaced`, `DocForest.bind_unplaced`, `resolve_moved`.
-/
import SqlDoc.Proofs.Context.Independence
import SqlDoc.Proofs.Doc.Moving
import SqlDoc.Proofs.Doc.Stack
import SqlDoc.Proofs.Syntax.Inserting

namespace SqlDoc

/-! ### Leaving out places -/

/-- The span, if there is one, at no place in particular. -/
def Span.unplaced? (span : Option Span) : Option Span :=
  span.map fun _ => .point .start

/-- The report without its place. -/
def Diagnostic.unplaced (d : Diagnostic) : Diagnostic :=
  { d with position := d.position.map fun _ => .start }

def Reports.unplaced (r : Reports) : Reports where
  now := r.now.map .unplaced
  late := r.late.map .unplaced

/-- The context without places. -/
def Context.unplaced (c : Context) : Context :=
  { c with span := Span.unplaced? c.span, annotations := c.annotations.map .unplaced }

def ContextRow.unplaced (row : ContextRow) : ContextRow :=
  row.modifyContext .unplaced

/-- The site without places. -/
def Site.unplaced (s : Site) : Site :=
  { s with
    span := Span.unplaced? s.span
    tags := s.tags.map .unplaced
    reports := s.reports.map .unplaced }

def CommentRecord.unplaced (c : CommentRecord) : CommentRecord :=
  { c with site := c.site.unplaced }

/-- The sites and their contexts without places. -/
def DocForest.unplaced : DocForest → DocForest
  | nil => nil
  | node site context inside rest =>
    node site.unplaced (context.map .unplaced) inside.unplaced rest.unplaced

theorem Reports.unplaced_append (r s : Reports) : (r ++ s).unplaced = r.unplaced ++ s.unplaced := by
  have hnow : (r.now ++ s.now).map Diagnostic.unplaced = _ := List.map_append
  have hlate : (r.late ++ s.late).map Diagnostic.unplaced = _ := List.map_append
  exact congrArg₂ Reports.mk hnow hlate

/-! ### Groups -/

theorem flatten_unplaced (started pending : Bool) (tokens : List SqlToken) :
    flatten started pending (tokens.map .unplaced) = flatten started pending tokens := by
  fun_induction flatten started pending tokens with
  | case1 => rfl
  | case2 started pending t tokens ht ih =>
    have ht : t.unplaced.isTrivia = true := ht
    rw [List.map_cons, flatten, if_pos ht, ih]
  | case3 started pending t tokens ht ih =>
    have ht : ¬ t.unplaced.isTrivia = true := ht
    rw [List.map_cons, flatten, if_neg ht, ih]
    rfl

namespace TokenGroup

variable {κ : Type} (g : TokenGroup κ)

@[simp] theorem tokens_unplaced : g.unplaced.tokens = g.tokens.map .unplaced := by
  cases g with
  | keyed leading key =>
    show _ = (leading ++ [key]).map Token.unplaced
    rw [List.map_append]
    rfl
  | trailing => rfl

@[simp] theorem leading_unplaced : g.unplaced.leading = g.leading.map .unplaced := by
  cases g <;> rfl

@[simp] theorem text_unplaced : g.unplaced.text = g.text := by
  rw [text, tokens_unplaced, tokensText, List.map_map]
  rfl

@[simp] theorem textFromKey_unplaced : g.unplaced.textFromKey = g.textFromKey := by
  cases g <;> rfl

end TokenGroup

variable (groups : List SqlGroup)

theorem flattenGroups_unplaced : flattenGroups (groups.map .unplaced) = flattenGroups groups := by
  have htokens : (groups.map TokenGroup.unplaced).flatMap (·.tokens) =
      (groups.flatMap (·.tokens)).map .unplaced := by
    rw [List.flatMap_map, List.map_flatMap]
    exact List.flatMap_congr fun g _ => g.tokens_unplaced
  rw [flattenGroups, htokens, flatten_unplaced]
  rfl

theorem textFromKey_unplaced : textFromKey (groups.map .unplaced) = textFromKey groups := by
  cases groups with
  | nil => rfl
  | cons first rest =>
    have hrest : (rest.map TokenGroup.unplaced).map (·.text) = rest.map (·.text) := by
      rw [List.map_map]
      exact List.map_congr_left fun g _ => g.text_unplaced
    rw [List.map_cons, textFromKey, textFromKey, hrest, first.textFromKey_unplaced]

theorem headerText_unplaced : headerText (groups.map .unplaced) = headerText groups := by
  unfold headerText
  rw [textFromKey_unplaced]

theorem groupsSpan?_unplaced :
    groupsSpan? (groups.map .unplaced) = Span.unplaced? (groupsSpan? groups) := by
  have hkey (g : SqlGroup) : g.unplaced.key.span.start = .start := by
    cases g <;> rfl
  have hstop (g : SqlGroup) : g.unplaced.span.stop = .start := by
    cases g with
    | keyed => rfl
    | trailing first rest =>
      show ((rest.map Token.unplaced).getLastD first.unplaced).span.stop = .start
      rw [List.getLastD_eq_getLast?, List.getLast?_map]
      cases rest.getLast? <;> rfl
  unfold groupsSpan?
  rw [List.head?_map, List.getLast?_map]
  cases groups.head? with
  | none => rfl
  | some first =>
    cases groups.getLast? with
    | none => rfl
    | some last =>
      show some (Span.between first.unplaced.key.span.start last.unplaced.span.stop) = _
      rw [hkey, hstop]
      rfl

/-! ### Trees -/

namespace SyntaxTree

variable (t : SyntaxTree)

theorem groups_unplaced : t.unplaced.groups = t.groups.map .unplaced :=
  t.groups_regroup _

theorem words_unplaced : t.unplaced.words = t.words := by
  have hkey (g : SqlGroup) : g.unplaced.key?.map (·.value) = g.key?.map (·.value) := by
    cases g <;> rfl
  unfold words keys
  rw [groups_unplaced, List.filterMap_map, List.map_filterMap, List.map_filterMap]
  exact List.filterMap_congr fun g _ => hkey g

theorem span?_unplaced : t.unplaced.span? = Span.unplaced? t.span? := by
  rw [span?, groups_unplaced, groupsSpan?_unplaced]
  rfl

theorem docComments_unplaced : t.unplaced.docComments = t.docComments.map .unplaced := by
  have hleading : t.unplaced.leadingTrivia = t.leadingTrivia.map .unplaced := by
    rw [leadingTrivia, groups_unplaced, List.head?_map, leadingTrivia]
    cases t.groups.head? with
    | none => rfl
    | some g => exact g.leading_unplaced
  rw [docComments, hleading, List.filter_map]
  rfl

theorem flatText_unplaced : t.unplaced.flatText = t.flatText := by
  rw [flatText, groups_unplaced, flattenGroups_unplaced]
  rfl

theorem flatTextAfter?_unplaced (word : String) :
    t.unplaced.flatTextAfter? word = t.flatTextAfter? word := by
  have hkey : (fun g : SqlGroup => g.key?.all (·.value ≠ word)) ∘ TokenGroup.unplaced =
      fun g => g.key?.all (·.value ≠ word) := by
    funext g
    cases g <;> rfl
  rw [flatTextAfter?, flatTextAfter?, groups_unplaced, List.dropWhile_map, hkey]
  cases t.groups.dropWhile fun g => g.key?.all (·.value ≠ word) with
  | nil => rfl
  | cons _ rest => exact congrArg some (flattenGroups_unplaced rest)

theorem header_unplaced : t.unplaced.header = t.header := by
  have hbefore : t.unplaced.below.groupsBefore NodeKind.isMember =
      (t.below.groupsBefore NodeKind.isMember).map .unplaced :=
    t.below.groupsBefore_sift _ _
  have hkind : t.unplaced.kind = t.kind := rfl
  rw [header, header, hbefore, groups_unplaced, hkind]
  cases t.kind <;> exact headerText_unplaced _

theorem child?_unplaced (kind : NodeKind) :
    t.unplaced.child? kind = (t.child? kind).map .unplaced :=
  t.child?_regroup _ kind

theorem numberedChildren_unplaced (id : Nat) : t.unplaced.numberedChildren id =
    (t.numberedChildren id).map fun p => (p.1, p.2.unplaced) :=
  t.numberedChildren_regroup _ id

theorem children_unplaced : t.unplaced.children = t.children.map .unplaced :=
  t.children_regroup _

theorem modifiers_unplaced : t.unplaced.modifiers = t.modifiers.map .unplaced := by
  rw [modifiers, children_unplaced, List.filter_map]
  rfl

theorem modifierNames_unplaced : t.unplaced.modifierNames = t.modifierNames := by
  rw [modifierNames, modifiers_unplaced, List.filterMap_map]
  rfl

theorem typeText_unplaced : t.unplaced.typeText = t.typeText := by
  rw [typeText, child?_unplaced, typeText]
  cases t.child? .typeExpr with
  | none => rfl
  | some type => exact type.flatText_unplaced

theorem defaultText?_unplaced : t.unplaced.defaultText? = t.defaultText? := by
  rw [defaultText?, child?_unplaced, defaultText?]
  cases t.child? .expression with
  | none => rfl
  | some expr => exact congrArg some expr.flatText_unplaced

theorem definitionText_unplaced : t.unplaced.definitionText = t.definitionText := by
  simp only [definitionText, flatTextAfter?_unplaced]

end SyntaxTree

/-! ### Declarations -/

section

variable (t : SyntaxTree)

theorem Context.ofTree_unplaced (kind : ContextKind) (id : String) (detail : Detail) :
    (Context.ofTree kind id detail t.unplaced).unplaced =
      (Context.ofTree kind id detail t).unplaced := by
  have hspan (span : Option Span) : Span.unplaced? (Span.unplaced? span) = Span.unplaced? span := by
    cases span <;> rfl
  simp only [ofTree, unplaced, t.header_unplaced, t.span?_unplaced, hspan]
  rfl

theorem methodDetail_unplaced : methodDetail t.unplaced = methodDetail t := by
  rw [methodDetail, t.child?_unplaced, t.header_unplaced, t.modifierNames_unplaced, methodDetail]
  cases t.child? .returnClause with
  | none => rfl
  | some clause => simp only [Option.map_some, clause.typeText_unplaced]

theorem unitDetail_unplaced (unit : UnitKind) : unitDetail unit t.unplaced = unitDetail unit t := by
  have hnamed (word : String) :
      (t.unplaced.modifiers.filter fun m => m.name.any (·.display = word)).getLast? =
        ((t.modifiers.filter fun m => m.name.any (·.display = word)).getLast?).map .unplaced := by
    rw [t.modifiers_unplaced, List.filter_map, List.getLast?_map]
    rfl
  have hword (m : SyntaxTree) : m.unplaced.words[1]? = m.words[1]? := by rw [m.words_unplaced]
  have hbase (m : SyntaxTree) :
      ((m.unplaced.child? .typeExpr).bind fun base => base.name.map (·.display)) =
        (m.child? .typeExpr).bind fun base => base.name.map (·.display) := by
    rw [m.child?_unplaced, Option.bind_map]
    rfl
  simp only [unitDetail, hnamed, Option.bind_map, Function.comp_def, hword, hbase,
    t.modifierNames_unplaced]

theorem unitContext_unplaced (unit : UnitKind) :
    (unitContext unit t.unplaced).unplaced = (unitContext unit t).unplaced := by
  unfold unitContext
  cases unit <;> simp only [unitDetail_unplaced, methodDetail_unplaced] <;>
    exact Context.ofTree_unplaced ..

theorem methodContext_unplaced (kind : MethodKind) (id : String) :
    (methodContext kind id t.unplaced).unplaced = (methodContext kind id t).unplaced := by
  rw [methodContext, methodDetail_unplaced, Context.ofTree_unplaced]
  rfl

theorem exceptionContext_unplaced (codes : List String) :
    (exceptionContext codes t.unplaced).unplaced = (exceptionContext codes t).unplaced :=
  Context.ofTree_unplaced ..

theorem memberContext?_unplaced :
    (memberContext? t.unplaced).map Context.unplaced = (memberContext? t).map .unplaced := by
  have hsome (kind : ContextKind) (detail : Detail) :
      (some (Context.ofNamed kind detail t.unplaced)).map Context.unplaced =
        (some (Context.ofNamed kind detail t)).map .unplaced :=
    congrArg some (Context.ofTree_unplaced ..)
  have hkind : t.unplaced.kind = t.kind := rfl
  rw [memberContext?, memberContext?, t.typeText_unplaced, t.defaultText?_unplaced,
    t.modifierNames_unplaced, t.definitionText_unplaced, hkind]
  cases t.kind with
  | attributeDecl | variableDecl | subtypeDecl => exact hsome ..
  | typeDecl shape => cases shape <;> exact hsome ..
  | _ => rfl

theorem leafContext?_unplaced (owner : String) :
    (leafContext? owner t.unplaced).map Context.unplaced =
      (leafContext? owner t).map .unplaced := by
  have hkind : t.unplaced.kind = t.kind := rfl
  rw [leafContext?, leafContext?, t.typeText_unplaced, t.defaultText?_unplaced,
    t.modifierNames_unplaced, hkind]
  cases t.kind with
  | parameter | fieldDecl => exact congrArg some (Context.ofTree_unplaced ..)
  | _ => rfl

theorem codeBinding?_unplaced : codeBinding? t.unplaced = codeBinding? t := by
  rw [codeBinding?, t.flatText_unplaced]
  rfl

end

/-! ### Sites -/

/-- The tags of comments, one comment after the other. -/
def tagsOf (comments : List SqlToken) : List Tag :=
  comments.flatMap fun c => (parseComment c.text c.span.start).tags

theorem tagsOf_append (comments others : List SqlToken) :
    tagsOf (comments ++ others) = tagsOf comments ++ tagsOf others :=
  List.flatMap_append

/-- Comments give their tags to a site and nothing to report. -/
theorem Site.ofTree_eq (node : Nat) (t : SyntaxTree) :
    Site.ofTree node t =
      { node
        kind := t.kind
        span := t.span?
        tags := tagsOf t.docComments
        reports := if t.kind = .unhandled then [unresolved t] else [] } := by
  have herrors : (t.docComments.map fun c => parseComment c.text c.span.start).flatMap
      (fun c => c.error.toList.map malformed) = [] := by
    refine List.flatMap_eq_nil_iff.2 fun c hc => ?_
    obtain ⟨token, -, rfl⟩ := List.mem_map.1 hc
    have herror : (parseComment token.text token.span.start).error = none := lexDoc_error ..
    rw [herror]
    rfl
  rw [ofTree, herrors, List.flatMap_map]
  rfl

theorem tagsOf_unplaced (comments : List SqlToken) :
    (tagsOf (comments.map .unplaced)).map Tag.unplaced = (tagsOf comments).map Tag.unplaced := by
  rw [tagsOf, tagsOf, List.flatMap_map, List.map_flatMap, List.map_flatMap]
  exact List.flatMap_congr fun c _ => parseComment_moved ..

/-- The comments are read alike. -/
theorem Site.ofTree_unplaced (node : Nat) (t : SyntaxTree) :
    (Site.ofTree node t.unplaced).unplaced = (Site.ofTree node t).unplaced := by
  have hunresolved : (unresolved t.unplaced).unplaced = (unresolved t).unplaced := by
    rw [unresolved, t.words_unplaced, t.span?_unplaced, unresolved]
    cases t.span? <;> rfl
  have hspan : Span.unplaced? (Span.unplaced? t.span?) = Span.unplaced? t.span? := by
    cases t.span? <;> rfl
  have hkind : t.unplaced.kind = t.kind := rfl
  rw [ofTree_eq, ofTree_eq, t.docComments_unplaced, t.span?_unplaced, unplaced, unplaced]
  dsimp only
  rw [tagsOf_unplaced, hspan, hkind]
  split
  · rw [List.map_singleton, hunresolved]
    rfl
  · rfl

namespace DocForest

theorem ofLeaves_unplaced (owner : String) (leaves : List (Nat × SyntaxTree)) :
    (ofLeaves owner (leaves.map fun p => (p.1, p.2.unplaced))).unplaced =
      (ofLeaves owner leaves).unplaced := by
  induction leaves with
  | nil => rfl
  | cons leaf leaves ih =>
    obtain ⟨id, t⟩ := leaf
    have hkind : t.unplaced.kind = t.kind := rfl
    rw [List.map_cons, ofLeaves, ofLeaves, hkind]
    split
    · rw [unplaced, unplaced, Site.ofTree_unplaced, leafContext?_unplaced, ih]
      rfl
    · exact ih

theorem ofParameters_unplaced (owner : String) (id : Nat) (t : SyntaxTree) :
    (ofParameters owner id t.unplaced).unplaced = (ofParameters owner id t).unplaced := by
  have hlist : ((t.unplaced.numberedChildren id).find? (·.2.kind = .parameterList)) =
      ((t.numberedChildren id).find? (·.2.kind = .parameterList)).map
        fun p => (p.1, p.2.unplaced) := by
    rw [t.numberedChildren_unplaced, List.find?_map]
    rfl
  rw [ofParameters, hlist, ofParameters]
  cases (t.numberedChildren id).find? (·.2.kind = .parameterList) with
  | none => rfl
  | some found =>
    dsimp only [Option.map_some]
    rw [found.2.numberedChildren_unplaced, ofLeaves_unplaced]

theorem ofMembers_unplaced (bindings : List (Name × String)) (ids : OverloadIds)
    (exceptions : List String) (members : List (Nat × SyntaxTree)) :
    (ofMembers bindings ids exceptions (members.map fun p => (p.1, p.2.unplaced))).unplaced =
      (ofMembers bindings ids exceptions members).unplaced := by
  induction members generalizing ids exceptions with
  | nil => rfl
  | cons member members ih =>
    obtain ⟨id, t⟩ := member
    have hkind : t.unplaced.kind = t.kind := rfl
    have hname : t.unplaced.nameOrEmpty = t.nameOrEmpty := rfl
    have hbare (context : Option Context) (other : Option Context) (ids : OverloadIds)
        (exceptions : List String) (h : context.map Context.unplaced = other.map .unplaced) :
        (node (.ofTree id t.unplaced) context nil (ofMembers bindings ids exceptions
          (members.map fun p => (p.1, p.2.unplaced)))).unplaced =
        (node (.ofTree id t) other nil (ofMembers bindings ids exceptions members)).unplaced := by
      rw [unplaced, unplaced, Site.ofTree_unplaced, h, ih]
      rfl
    rw [List.map_cons, ofMembers, ofMembers, hkind, hname]
    split
    · rw [unplaced, unplaced, Site.ofTree_unplaced, Option.map_some, Option.map_some,
        methodContext_unplaced, ofParameters_unplaced, ih]
    · exact hbare _ _ _ _ (congrArg some (exceptionContext_unplaced t _))
    · rw [unplaced, unplaced, Site.ofTree_unplaced, memberContext?_unplaced, ih,
        t.numberedChildren_unplaced, ofLeaves_unplaced]
    · split
      · exact hbare _ _ _ _ (memberContext?_unplaced t)
      · exact ih _ _

/-- What a statement documents is the same but for places. -/
theorem ofStatement_unplaced (t : SyntaxTree) :
    (ofStatement t.unplaced).unplaced = (ofStatement t).unplaced := by
  have hkind : t.unplaced.kind = t.kind := rfl
  have hname : t.unplaced.nameOrEmpty = t.nameOrEmpty := rfl
  have hunit : (ofUnit t.unplaced).unplaced = (ofUnit t).unplaced := by
    have hbindings : t.unplaced.children.filterMap codeBinding? =
        t.children.filterMap codeBinding? := by
      rw [t.children_unplaced, List.filterMap_map]
      exact List.filterMap_congr fun child _ => codeBinding?_unplaced child
    rw [ofUnit, hbindings, t.numberedChildren_unplaced, ofMembers_unplaced]
    rfl
  rw [ofStatement, ofStatement, hkind, hname]
  split
  · rename_i unit _
    have hcontext := congrArg some (unitContext_unplaced t unit)
    cases unit <;>
      simp only [unplaced, Option.map_some, Site.ofTree_unplaced, hcontext, hunit,
        ofParameters_unplaced]
  · simp only [unplaced, Site.ofTree_unplaced]

end DocForest

/-! ### Binding tags -/

theorem ParamDoc.apply_unplaced (doc : ParamDoc) (c : Context) :
    doc.apply c.unplaced = (doc.apply c).unplaced := by
  unfold apply Context.unplaced
  cases c.detail <;> rfl

namespace Binding

/-- The binding without places. -/
def unplaced (b : Binding) : Binding :=
  { b with owner := b.owner.unplaced, reports := b.reports.unplaced }

variable (scope : BindingScope) (b : Binding) (t : Tag)

theorem warn_unplaced (code : Code) (message : String) :
    b.unplaced.warn code message t.unplaced = (b.warn code message t).unplaced := by
  rw [warn, warn, unplaced, unplaced, Reports.unplaced_append, t.span_unplaced]
  rfl

theorem orphan_unplaced (message : String) :
    b.unplaced.orphan scope t.unplaced message = (b.orphan scope t message).unplaced := by
  unfold orphan
  split
  · exact warn_unplaced ..
  · rfl

theorem annotate_unplaced : b.unplaced.annotate t.unplaced = (b.annotate t).unplaced := by
  rw [annotate, annotate, unplaced, unplaced, Context.unplaced, Context.unplaced, List.map_append]
  rfl

theorem addDescription_unplaced :
    b.unplaced.addDescription t.unplaced = (b.addDescription t).unplaced := by
  unfold addDescription
  rw [t.text_unplaced]
  split <;> rfl

theorem addParam_unplaced (targets : ParamTargets) (name : Name) (doc : ParamDoc) :
    b.unplaced.addParam scope targets t.unplaced name doc =
      (b.addParam scope targets t name doc).unplaced := by
  unfold addParam
  show (if b.named.contains name.display then _ else _) = _
  split
  · exact warn_unplaced ..
  · dsimp only
    split
    · rfl
    · exact orphan_unplaced scope { b with named := name.display :: b.named } t _

theorem addReturn_unplaced (type : Option String) :
    b.unplaced.addReturn scope t.unplaced type = (b.addReturn scope t type).unplaced := by
  have horphan := orphan_unplaced scope { b with returned := true } t
  unfold addReturn
  rw [t.text_unplaced]
  show (if !b.owner.kind.isMethod then _ else if b.returned then _ else _) = _
  split
  · exact annotate_unplaced ..
  · split
    · exact warn_unplaced ..
    · obtain ⟨⟨_, _, _, _, _, _, _, _, _, detail⟩, _⟩ := b
      cases detail with
      | method returns =>
        cases returns with
        | some returns => rfl
        | none => exact horphan _
      | _ => exact horphan _

theorem addThrows_unplaced (name : Name) :
    b.unplaced.addThrows scope t.unplaced name = (b.addThrows scope t name).unplaced := by
  unfold addThrows
  rw [t.text_unplaced, t.span_unplaced, unplaced, unplaced, Reports.unplaced_append]
  dsimp only
  split <;> rfl

/-- A tag says the same wherever it stands. -/
theorem addTag_unplaced (targets : Option ParamTargets) :
    b.unplaced.addTag scope targets t.unplaced = (b.addTag scope targets t).unplaced := by
  have htype (type : Option DocExpr) :
      (unplacedType type).map (·.text) = type.map (·.text) := map_text_unplacedType type
  unfold addTag
  rw [t.body_unplaced]
  cases t.body with
  | description => exact addDescription_unplaced ..
  | param name type default isOptional =>
    cases targets with
    | none => exact annotate_unplaced ..
    | some targets =>
      cases name with
      | none => exact orphan_unplaced ..
      | some name =>
        dsimp only [TagBody.unplaced]
        rw [htype, t.text_unplaced, addParam_unplaced]
  | returns type =>
    dsimp only [TagBody.unplaced]
    rw [htype, addReturn_unplaced]
  | throws name =>
    cases name with
    | none => exact orphan_unplaced ..
    | some name => exact addThrows_unplaced ..
  | link | visibility | generic => exact annotate_unplaced ..

theorem bindTags_unplaced (c : Context) (inside : List Context) (tags : List Tag) :
    bindTags scope c.unplaced (inside.map .unplaced) (tags.map .unplaced) =
      (bindTags scope c inside tags).unplaced := by
  have htargets : c.unplaced.paramTargets? (inside.map .unplaced) = c.paramTargets? inside := by
    unfold Context.paramTargets?
    rw [List.map_map, List.filter_map, List.map_map]
    rfl
  have hfold (b : Binding) :
      (tags.map Tag.unplaced).foldl (addTag scope (c.paramTargets? inside)) b.unplaced =
        (tags.foldl (addTag scope (c.paramTargets? inside)) b).unplaced := by
    induction tags generalizing b with
    | nil => rfl
    | cons t tags ih => rw [List.map_cons, List.foldl_cons, List.foldl_cons, addTag_unplaced, ih]
  have hfinish (b : Binding) : b.unplaced.finish = b.finish.unplaced := by
    unfold finish
    show (if b.descriptions = [] then _ else _) = _
    split <;> rfl
  unfold bindTags
  rw [htargets, ← hfinish, ← hfold]
  rfl

end Binding

namespace DocForest

theorem topContexts_unplaced (f : DocForest) :
    f.unplaced.topContexts = f.topContexts.map .unplaced := by
  induction f with
  | nil => rfl
  | node _ context _ _ _ ih => cases context <;> simp [unplaced, topContexts, ih]

@[simp] theorem contextCount_unplaced (f : DocForest) :
    f.unplaced.contextCount = f.contextCount := by
  induction f with
  | nil => rfl
  | node _ context _ _ ihinside ihrest =>
    cases context <;> simp [unplaced, contextCount, ihinside, ihrest]

theorem describeInside_unplaced (b : Binding) (c : Context) (f : DocForest) :
    b.unplaced.describeInside c.unplaced f.unplaced = (b.describeInside c f).unplaced := by
  have hdescribe (doc : ParamDoc) (f : DocForest) :
      f.unplaced.describe (isTargetOf c.unplaced) doc =
        (f.describe (isTargetOf c) doc).unplaced := by
    induction f with
    | nil => rfl
    | node site context inside rest _ ih =>
      cases context with
      | none => simp only [unplaced, describe, Option.map_none, ih]
      | some d =>
        unfold describe
        show (if isTargetOf c d && d.name.sameBase doc.name then _ else _) = _
        split
        · simp only [unplaced, Option.map_some, doc.apply_unplaced]
        · rw [unplaced, ih]
          rfl
  exact Binding.describeInside_comm (g := unplaced) rfl hdescribe f

/-- The tags say the same wherever they stand. -/
theorem bind_unplaced (scope : BindingScope) (f : DocForest) :
    f.unplaced.bind scope = ((f.bind scope).1.unplaced, (f.bind scope).2.unplaced) := by
  induction f with
  | nil => rfl
  | node site context inside rest ihinside ihrest =>
    cases context with
    | none =>
      rw [unplaced, Option.map_none, bind, ihinside, ihrest]
      simp only [bind, unplaced, Reports.unplaced_append]
      rfl
    | some c =>
      rw [unplaced, Option.map_some, bind_some, bind_some, ihinside, ihrest]
      dsimp only
      rw [topContexts_unplaced, Site.unplaced, Binding.bindTags_unplaced, describeInside_unplaced]
      simp only [unplaced, Reports.unplaced_append]
      rfl

/-! ### Numbers -/

theorem tops_unplaced (f : DocForest) (next : Nat) :
    f.unplaced.tops next = (f.tops next).map fun q => (q.1, q.2.unplaced) := by
  induction f generalizing next with
  | nil => rfl
  | node _ context inside rest _ ih =>
    rw [unplaced, tops, tops, contextCount_unplaced, List.map_append]
    cases context <;> rw [← ih] <;> rfl

theorem rows_unplaced (f : DocForest) (parent : Option Nat) (next : Nat) :
    f.unplaced.rows parent next = (f.rows parent next).map .unplaced := by
  induction f generalizing parent next with
  | nil => rfl
  | node _ context inside rest ihinside ihrest =>
    cases context with
    | none =>
      rw [unplaced, Option.map_none, rows, rows, contextCount_unplaced, List.map_append, ihinside,
        ihrest]
    | some c =>
      have hids : inside.unplaced.topIds (next + 1) = inside.topIds (next + 1) := by
        rw [topIds, tops_unplaced, List.map_map]
        rfl
      rw [unplaced, Option.map_some, rows, rows, contextCount_unplaced, List.map_cons,
        List.map_append, ihinside, ihrest, hids]
      rfl

theorem records_unplaced (f : DocForest) (statement next : Nat) :
    f.unplaced.records statement next = (f.records statement next).map .unplaced := by
  induction f generalizing next with
  | nil => rfl
  | node _ context inside rest ihinside ihrest =>
    rw [unplaced, records, records, contextCount_unplaced, List.map_cons, List.map_append]
    cases context <;> rw [← ihinside, ← ihrest] <;> rfl

theorem exceptions_unplaced (f : DocForest) (next : Nat) :
    f.unplaced.exceptions next = f.exceptions next := by
  induction f generalizing next with
  | nil => rfl
  | node _ context inside rest _ ih =>
    cases context with
    | none =>
      rw [unplaced, Option.map_none, exceptions, exceptions, contextCount_unplaced, ih]
    | some c =>
      rw [unplaced, Option.map_some, exceptions_some, exceptions_some, contextCount_unplaced, ih]
      rfl

end DocForest

/-! ### Statements -/

section

variable {t u : SyntaxTree} (warnOrphans : Bool)

theorem ofStatement_of_unplaced (h : t.unplaced = u.unplaced) :
    (DocForest.ofStatement t).unplaced = (DocForest.ofStatement u).unplaced := by
  rw [← DocForest.ofStatement_unplaced, h, DocForest.ofStatement_unplaced]

theorem statementScope_unplaced (next : Nat) (t : SyntaxTree) :
    statementScope warnOrphans next t =
      { exceptions :=
          match (DocForest.ofStatement t).unplaced with
          | .node _ _ inside _ => inside.exceptions (next + 1)
          | .nil => []
        warnOrphans } := by
  unfold statementScope
  cases DocForest.ofStatement t with
  | nil => rfl
  | node _ _ inside _ =>
    dsimp only [DocForest.unplaced]
    rw [DocForest.exceptions_unplaced]

/-- A statement is resolved in the same way wherever its tokens stand. -/
theorem resolveStatement_of_unplaced (h : t.unplaced = u.unplaced) (next : Nat) :
    (resolveStatement warnOrphans next t).1.unplaced =
        (resolveStatement warnOrphans next u).1.unplaced ∧
      (resolveStatement warnOrphans next t).2.unplaced =
        (resolveStatement warnOrphans next u).2.unplaced := by
  have hforest := ofStatement_of_unplaced h
  have hscope : statementScope warnOrphans next t = statementScope warnOrphans next u := by
    rw [statementScope_unplaced, hforest, ← statementScope_unplaced]
  have hbind := DocForest.bind_unplaced (statementScope warnOrphans next u) (.ofStatement t)
  rw [hforest, DocForest.bind_unplaced] at hbind
  obtain ⟨hfst, hsnd⟩ := Prod.mk.inj hbind
  have hkind : t.unplaced.kind = u.unplaced.kind := congrArg SyntaxTree.kind h
  have hkind : t.kind = u.kind := hkind
  refine ⟨?_, ?_⟩
  · rw [fst_resolveStatement, fst_resolveStatement, hscope, hfst]
  · obtain ⟨hnow, hlate⟩ := Reports.mk.inj hsnd
    rw [snd_resolveStatement, snd_resolveStatement, hscope, hkind]
    dsimp only
    split
    · rw [Reports.unplaced, Reports.unplaced, List.map_append, List.map_append, hnow, hlate]
    · exact hsnd.symm

end

/-- Files whose trees differ in nothing but places document the same but for places, and the same is
reported about them. -/
theorem resolve_moved {trees others : List SyntaxTree}
    (h : trees.map SyntaxTree.unplaced = others.map SyntaxTree.unplaced) (warnOrphans : Bool)
    (statement next : Nat) :
    (statementRows id warnOrphans next trees).map ContextRow.unplaced =
        (statementRows id warnOrphans next others).map .unplaced ∧
      (resolveFrom warnOrphans statement next trees).1.comments.map CommentRecord.unplaced =
        (resolveFrom warnOrphans statement next others).1.comments.map .unplaced ∧
      (resolveFrom warnOrphans statement next trees).1.units =
        (resolveFrom warnOrphans statement next others).1.units ∧
      (resolveFrom warnOrphans statement next trees).2.unplaced =
        (resolveFrom warnOrphans statement next others).2.unplaced := by
  induction trees generalizing others statement next with
  | nil =>
    rw [List.map_eq_nil_iff.1 h.symm]
    exact ⟨rfl, rfl, rfl, rfl⟩
  | cons t more ih =>
    obtain ⟨u, others, rfl, hu, hmore⟩ := List.map_eq_cons_iff.1 h.symm
    obtain ⟨hforest, hreports⟩ := resolveStatement_of_unplaced warnOrphans hu.symm next
    let f := (resolveStatement warnOrphans next t).1
    let g := (resolveStatement warnOrphans next u).1
    have hforest : f.unplaced = g.unplaced := hforest
    have hcount : f.contextCount = g.contextCount := by
      rw [← f.contextCount_unplaced, hforest, g.contextCount_unplaced]
    obtain ⟨hrows, hcomments, hunits, hlater⟩ :=
      ih hmore.symm (statement + 1) (next + f.contextCount)
    refine ⟨?_, ?_, ?_, ?_⟩
    · have htop : (f.rows none next).map ContextRow.unplaced =
          (g.rows none next).map .unplaced := by
        rw [← f.rows_unplaced, hforest, g.rows_unplaced]
      rw [statementRows, statementRows, ite_self, ite_self, List.map_id, List.map_id,
        List.map_append, List.map_append]
      exact congrArg₂ (· ++ ·) htop (hcount ▸ hrows)
    · have htop : (f.records statement next).map CommentRecord.unplaced =
          (g.records statement next).map .unplaced := by
        rw [← f.records_unplaced, hforest, g.records_unplaced]
      show (f.records statement next ++ _).map _ = (g.records statement next ++ _).map _
      rw [List.map_append, List.map_append]
      exact congrArg₂ (· ++ ·) htop (hcount ▸ hcomments)
    · have htop : (if f.contextCount = 0 then [] else [next]) =
          if g.contextCount = 0 then [] else [next] := by rw [hcount]
      exact congrArg₂ (· ++ ·) htop (hcount ▸ hunits)
    · show ((resolveStatement warnOrphans next t).2 ++ _).unplaced =
        ((resolveStatement warnOrphans next u).2 ++ _).unplaced
      rw [Reports.unplaced_append, Reports.unplaced_append, hreports]
      exact congrArg _ (hcount ▸ hlater)

end SqlDoc

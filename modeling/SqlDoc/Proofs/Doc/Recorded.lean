/-
# Recorded texts in a comment

Some texts are recorded while a comment is read: what stands in braces and brackets, what a link
refers to, dotted names, default values in brackets and arguments of calls. They may lie in each
other, and one of them may be cut off by a marker or by the end of the comment. Which tokens make a
construct, and so which are recorded for it, is said by rules for each of its parts
(`DocPart.MadeOf`). By these rules the tags of a comment are made of all its tokens, whatever is cut
off, and every recorded text is the text of the tokens that it is made of (`parseComment_recorded`).

Key definitions: `DocPart`, `DocPart.MadeOf`, `TagsOf`, `TagReader.Makes`, `ParsingProgram`.
Key theorems: `TagReader.Makes.all`, `ParsingProgram.consumes`, `parseComment_recorded`.
-/
import SqlDoc.Proofs.Doc.Consuming

namespace SqlDoc

open TagReader (Scope Closes AllOf ReferenceOf BracketedOf PlainOf)

/-! ### What tokens make -/

/-- The kind of token that opens an expression. -/
def Delimiter.opens : Delimiter → DocKind
  | brace => .lbrace
  | bracket => .lbracket

/-- The kind of token that closes an expression. -/
def Delimiter.closes : Delimiter → DocKind
  | brace => .rbrace
  | bracket => .rbracket

/-- The fields of the tag are none, or have no recorded text in them. -/
def TagBody.isBare : TagBody → Bool
  | .param .. | .returns _ | .link .. => false
  | _ => true

/-- From where the first token begins to where the last one ends. -/
def spanFrom (first : DocToken) (more : List DocToken) : Span :=
  .between first.span.start (more.getLast?.elim first.span.stop (·.span.stop))

/-- A construct of a comment, or a part of one. -/
inductive DocPart where
  | expr (e : DocExpr)
  /-- The items in front of the token that closes an expression. -/
  | items (close : DocKind) (items : List ExprItem)
  | item (close : DocKind) (i : ExprItem)
  /-- A datatype, if there is one. -/
  | type (e : Option DocExpr)
  | target (t : LinkTarget)
  | body (b : TagBody)
  | node (scope : Scope) (n : ContentNode)
  | content (scope : Scope) (nodes : List ContentNode)
  | tag (scope : Scope) (t : Tag)
  /-- A tag in braces. -/
  | inlineTag (t : Tag)

/-- The tokens make the part. A text that is recorded in it is that of the tokens that it is
recorded from. -/
inductive DocPart.MadeOf : DocPart → List DocToken → Prop where
  | expr {delimiter : Delimiter} {items : List ExprItem} {first : DocToken}
      {inside close : List DocToken} (hopen : first.kind = delimiter.opens)
      (hitems : MadeOf (.items delimiter.closes items) inside)
      (hclose : Closes delimiter.closes close) :
      MadeOf (.expr ⟨delimiter, items, flatDocText inside, spanFrom first (inside ++ close)⟩)
        (first :: (inside ++ close))
  | noItem (close : DocKind) : MadeOf (.items close []) []
  | layout {close : DocKind} {items : List ExprItem} {t : DocToken} {more : List DocToken}
      (hlayout : t.kind.isLayout = true) (hmore : MadeOf (.items close items) more) :
      MadeOf (.items close items) (t :: more)
  | items {close : DocKind} {item : ExprItem} {items : List ExprItem} {tokens more : List DocToken}
      (hitem : MadeOf (.item close item) tokens) (hmore : MadeOf (.items close items) more) :
      MadeOf (.items close (item :: items)) (tokens ++ more)
  | tagItem {close : DocKind} {t : Tag} {tokens : List DocToken}
      (htag : MadeOf (.inlineTag t) tokens) : MadeOf (.item close (.inlineTag t)) tokens
  | nestedItem {close : DocKind} {e : DocExpr} {tokens : List DocToken}
      (hexpr : MadeOf (.expr e) tokens) : MadeOf (.item close (.nested e)) tokens
  | hashItem {close : DocKind} {r : Reference} {t : DocToken} {tokens : List DocToken}
      (ht : t.kind = .hash) (href : ReferenceOf tokens r) :
      MadeOf (.item close (.hash r)) (t :: tokens)
  | nameItem {close : DocKind} {r : Reference} {tokens : List DocToken}
      (href : ReferenceOf tokens r) : MadeOf (.item close (.reference r)) tokens
  | tokenItem {close : DocKind} {t : DocToken} (hclose : t.kind ≠ close)
      (ht : t.kind.isLayout = false ∧ t.kind ∉ [.lbrace, .lbracket, .identifier]) :
      MadeOf (.item close (TagReader.itemToken t)) [t]
  | noType {blanks : List DocToken} (hblanks : AllOf [.whitespace] blanks) :
      MadeOf (.type none) blanks
  | type {e : DocExpr} {blanks tokens : List DocToken} (hblanks : AllOf [.whitespace] blanks)
      (hexpr : MadeOf (.expr e) tokens) : MadeOf (.type (some e)) (blanks ++ tokens)
  | exprTarget {e : DocExpr} {tokens : List DocToken} (hexpr : MadeOf (.expr e) tokens) :
      MadeOf (.target (.expression e)) tokens
  | urlTarget {t : DocToken} (ht : t.kind = .url) : MadeOf (.target (.url t.text)) [t]
  | hashTarget {r : Reference} {t : DocToken} {tokens : List DocToken} (ht : t.kind = .hash)
      (href : ReferenceOf tokens r) : MadeOf (.target (.hash r)) (t :: tokens)
  | nameTarget {r : Reference} {tokens : List DocToken} (href : ReferenceOf tokens r) :
      MadeOf (.target (.identifier r)) tokens
  | noTarget : MadeOf (.target .missing) []
  | bracketedParam {name : Option Name} {type : Option DocExpr} {default : Option String}
      {front blanks tokens dash : List DocToken} (htype : MadeOf (.type type) front)
      (hblanks : AllOf [.whitespace] blanks) (htokens : BracketedOf tokens default)
      (hdash : AllOf [.whitespace, .text] dash) :
      MadeOf (.body (.param name type default true)) (front ++ (blanks ++ (tokens ++ dash)))
  | plainParam {name : Option Name} {type : Option DocExpr} {default : Option String}
      {front blanks tokens dash : List DocToken} (htype : MadeOf (.type type) front)
      (hblanks : AllOf [.whitespace] blanks) (htokens : PlainOf tokens default)
      (hdash : AllOf [.whitespace, .text] dash) :
      MadeOf (.body (.param name type default false)) (front ++ (blanks ++ (tokens ++ dash)))
  | returns {type : Option DocExpr} {tokens : List DocToken} (htype : MadeOf (.type type) tokens) :
      MadeOf (.body (.returns type)) tokens
  | link {target : LinkTarget} {blanks tokens : List DocToken}
      (hblanks : AllOf [.whitespace] blanks) (htarget : MadeOf (.target target) tokens) :
      MadeOf (.body (.link target (flatDocText tokens))) (blanks ++ tokens)
  | bareBody {b : TagBody} {tokens : List DocToken} (hb : b.isBare = true)
      (htokens : AllOf (.whitespace :: TagReader.errorKinds) tokens) : MadeOf (.body b) tokens
  | tagNode {scope : Scope} {t : Tag} {tokens : List DocToken}
      (htag : MadeOf (.inlineTag t) tokens) : MadeOf (.node scope (.inlineTag t)) tokens
  | braceNode {scope : Scope} {e : DocExpr} {tokens : List DocToken}
      (hexpr : MadeOf (.expr e) tokens) : MadeOf (.node scope (.brace e)) tokens
  | bracketNode {scope : Scope} {e : DocExpr} {tokens : List DocToken}
      (hexpr : MadeOf (.expr e) tokens) : MadeOf (.node scope (.bracket e)) tokens
  | hashNode {scope : Scope} {r : Reference} {t : DocToken} {tokens : List DocToken}
      (ht : t.kind = .hash) (href : ReferenceOf tokens r) :
      MadeOf (.node scope (.hash r)) (t :: tokens)
  | tokenNode {scope : Scope} {t : DocToken} (ht : t.kind ≠ .lbrace ∧ t.kind ≠ .lbracket)
      (hscope : scope = .inline → t.kind ≠ .rbrace) :
      MadeOf (.node scope (TagReader.contentToken scope t)) [t]
  | noContent (scope : Scope) : MadeOf (.content scope []) []
  | content {scope : Scope} {node : ContentNode} {nodes : List ContentNode}
      {tokens more : List DocToken} (hnode : MadeOf (.node scope node) tokens)
      (hmore : MadeOf (.content scope nodes) more) :
      MadeOf (.content scope (node.cons nodes)) (tokens ++ more)
  | tag {scope : Scope} {body : TagBody} {content : List ContentNode} {first : DocToken}
      {front more : List DocToken} (hfirst : first.kind = .tag) (hbody : MadeOf (.body body) front)
      (hcontent : MadeOf (.content scope content) more) :
      MadeOf (.tag scope ⟨first.value, body, content, spanFrom first (front ++ more)⟩)
        (first :: (front ++ more))
  | inlineTag {t : Tag} {first : DocToken} {tokens close : List DocToken}
      (hopen : first.kind = .lbrace) (htag : MadeOf (.tag .inline t) tokens)
      (hclose : Closes .rbrace close) : MadeOf (.inlineTag t) (first :: (tokens ++ close))

/-- The tokens make a tag that stands in no other: one with a marker, or a description without. -/
inductive TopTagOf : List DocToken → Tag → Prop where
  | marked {tokens : List DocToken} {t : Tag} (htag : DocPart.MadeOf (.tag .block t) tokens) :
      TopTagOf tokens t
  | description {first : DocToken} {more : List DocToken} {content : List ContentNode}
      (hcontent : DocPart.MadeOf (.content .block content) (first :: more)) :
      TopTagOf (first :: more) ⟨"", .description, content, spanFrom first more⟩

/-- The tokens make the tags of a comment, with layout in front of each and behind the last. -/
inductive TagsOf : List DocToken → List Tag → Prop where
  | nil {layout : List DocToken} (hlayout : AllOf [.whitespace, .newline] layout) :
      TagsOf layout []
  | cons {layout tokens more : List DocToken} {t : Tag} {tags : List Tag}
      (hlayout : AllOf [.whitespace, .newline] layout) (htag : TopTagOf tokens t)
      (hmore : TagsOf more tags) : TagsOf (layout ++ (tokens ++ more)) (t :: tags)

namespace DocPart.MadeOf

variable {tokens : List DocToken}

theorem ne_nil_of_expr {e : DocExpr} (h : MadeOf (.expr e) tokens) : tokens ≠ [] := by
  cases h
  exact List.cons_ne_nil _ _

theorem ne_nil_of_tag {scope : Scope} {t : Tag} (h : MadeOf (.tag scope t) tokens) :
    tokens ≠ [] := by
  cases h
  exact List.cons_ne_nil _ _

theorem ne_nil_of_inlineTag {t : Tag} (h : MadeOf (.inlineTag t) tokens) : tokens ≠ [] := by
  cases h
  exact List.cons_ne_nil _ _

theorem ne_nil_of_referenceOf {r : Reference} (h : ReferenceOf tokens r) : tokens ≠ [] := by
  obtain ⟨name, args, rfl, hname, -⟩ := h
  exact List.append_ne_nil_of_left_ne_nil hname args

end DocPart.MadeOf

/-! ### Places -/

namespace TagState

variable {s : TagState}

/-- Tokens end where the last of them does. -/
theorem stop_after_append {tokens left : List DocToken} (h : s.rest = tokens ++ left) :
    (s.after tokens.length).stop = tokens.getLast?.elim s.stop (·.span.stop) := by
  induction tokens generalizing s with
  | nil => rfl
  | cons t more ih =>
    have hone : s.after 1 = s.pass t (more ++ left) := after_one h
    rw [List.length_cons, Nat.add_comm, s.after_add, hone, ih rfl, List.getLast?_cons]
    cases more.getLast? <;> rfl

/-- A program that begins in front of a token and reads that and more has the span of these. -/
theorem between_place {first : DocToken} {more left : List DocToken}
    (h : s.rest = first :: more ++ left) :
    Span.between s.place (s.after (first :: more).length).stop = spanFrom first more := by
  rw [stop_after_append h, place_eq h, spanFrom, List.getLast?_cons]
  cases more.getLast? <;> rfl

theorem kind?_after_one {t : DocToken} {rest : List DocToken} (h : s.rest = t :: rest) :
    (s.after 1).kind? = s.secondKind? := by
  rw [after_one h, secondKind?, h, kind?, List.head?_eq_getElem?]
  rfl

end TagState

namespace TagReader

open DocPart (MadeOf)

variable {s : TagState}

/-! ### The fields of a tag -/

section

variable {expression : TagReader DocExpr} {bound : Nat}

/-- Where at most `bound` tokens are ahead, the program makes the expression that opens there. -/
def MakesExpr (expression : TagReader DocExpr) (bound : Nat) : Prop :=
  ∀ s : TagState, Consumes expression s fun tokens e => s.rest.length ≤ bound →
    s.kind? = some .lbrace ∨ s.kind? = some .lbracket → MadeOf (.expr e) tokens

theorem consumes_typeConstraint (he : MakesExpr expression bound) (s : TagState) :
    Consumes (typeConstraint expression) s fun tokens type =>
      s.rest.length ≤ bound → MadeOf (.type type) tokens := by
  refine (consumes_skipBlanks s).bind fun blanks _ mid _ hrest => .at? (.secondIs (.ite
    (fun hopen => ?_) fun _ => .pure fun hblanks _ => ?_))
  · have hopen := eq_of_beq (Bool.and_eq_true_iff.1 hopen).1
    refine (he mid).map fun tokens e hexpr hblanks hbound => .type hblanks ?_
    rw [hrest, List.length_append] at hbound
    exact hexpr (by omega) (Or.inl hopen)
  · rw [List.append_nil]
    exact .noType hblanks

theorem consumes_linkTarget (he : MakesExpr expression bound) (s : TagState) :
    Consumes (linkTarget expression) s fun tokens target =>
      s.rest.length ≤ bound → MadeOf (.target target) tokens := by
  refine .get ?_
  split
  · exact .pure fun _ => .noTarget
  · rename_i t rest hrest
    have hkind? : s.kind? = some t.kind := TagState.kind?_eq hrest
    split
    · rename_i hkind
      exact (he s).map fun tokens e hexpr hbound =>
        .exprTarget (hexpr hbound (Or.inl (hkind?.trans (congrArg some hkind))))
    · rename_i hkind
      refine (consumes_take_cons hrest).bind fun tokens _ _ _ _ => .pure fun htokens _ => ?_
      rw [htokens]
      exact .urlTarget hkind
    · rename_i hkind
      refine .secondIs (.ite (fun hname => ?_) fun _ => .pure fun _ => .noTarget)
      refine (consumes_take_cons hrest).bind fun one _ mid hmid _ => ?_
      refine (consumes_reference mid).map fun tokens r href hone _ => ?_
      subst hone hmid
      exact .hashTarget hkind (href ((TagState.kind?_after_one hrest).trans (eq_of_beq hname)))
    · rename_i hkind
      exact (consumes_reference s).map fun tokens r href _ =>
        .nameTarget (href (hkind?.trans (congrArg some hkind)))
    · exact .pure fun _ => .noTarget

theorem consumes_link (he : MakesExpr expression bound) (s : TagState) :
    Consumes (link expression) s fun tokens body =>
      s.rest.length ≤ bound → MadeOf (.body body) tokens := by
  refine (consumes_skipBlanks s).bind fun blanks _ mid _ hrest =>
    (consumes_linkTarget he mid.beginRecording).recording.bind
    fun tokens r _ _ _ => .pure fun ⟨htarget, htext⟩ hblanks hbound => ?_
  rw [hrest, List.length_append] at hbound
  have htarget : MadeOf (.target r.1) tokens :=
    htarget (show mid.rest.length ≤ bound by omega)
  rw [htext, List.append_nil]
  exact .link hblanks htarget

theorem consumes_param (he : MakesExpr expression bound) (s : TagState) :
    Consumes (param expression) s fun tokens body =>
      s.rest.length ≤ bound → MadeOf (.body body) tokens := by
  refine (consumes_typeConstraint he s).bind fun front type mid _ _ =>
    (consumes_skipBlanks mid).bind fun blanks _ mid _ _ => .at? ?_
  have hbody (mid : TagState) (isOptional : Bool) (p : Option Name × Option String) :
      Consumes (do skipDash; Pure.pure (TagBody.param p.1 type p.2 isOptional)) mid
        fun dash body => AllOf [.whitespace, .text] dash ∧
          body = .param p.1 type p.2 isOptional :=
    (consumes_skipDash mid).bind fun dash _ _ _ _ => .pure fun hdash => by
      rw [List.append_nil]
      exact ⟨hdash, rfl⟩
  split
  · rename_i hopen
    refine (consumes_bracketedParam mid).bind fun tokens p mid _ _ =>
      (hbody mid _ p).mono fun dash body hdash htokens hblanks htype hbound => ?_
    rw [hdash.2, hopen]
    exact .bracketedParam (htype hbound) hblanks (htokens (eq_of_beq hopen)) hdash.1
  · rename_i hopen
    rw [Bool.not_eq_true] at hopen
    refine .at? ?_
    split
    · refine (consumes_plainParam mid).bind fun tokens p mid _ _ =>
        (hbody mid _ p).mono fun dash body hdash htokens hblanks htype hbound => ?_
      rw [hdash.2, hopen]
      exact .plainParam (htype hbound) hblanks htokens hdash.1
    · refine (hbody mid _ (none, none)).mono fun dash body hdash hblanks htype hbound => ?_
      rw [hdash.2, hopen]
      have hnone : PlainOf [] none := allOf_nil _
      exact .plainParam (htype hbound) hblanks hnone hdash.1

/-- The fields of a tag are made of the tokens behind its marker. -/
theorem consumes_tagBody (he : MakesExpr expression bound) (marker : String) (s : TagState) :
    Consumes (tagBody expression marker) s fun tokens body =>
      s.rest.length ≤ bound → MadeOf (.body body) tokens := by
  have hbare {b : TagBody} (hb : b.isBare = true) : Consumes (Pure.pure b : TagReader TagBody) s
      fun tokens body => s.rest.length ≤ bound → MadeOf (.body body) tokens :=
    .pure fun _ => .bareBody hb (allOf_nil _)
  unfold tagBody
  refine .ite (fun _ => consumes_param he s) fun _ => .ite (fun _ => consumes_link he s) fun _ => ?_
  split
  · exact hbare rfl
  · exact hbare rfl
  · exact (consumes_typeConstraint he s).map fun _ _ htype hbound => .returns (htype hbound)
  · exact (consumes_typeConstraint he s).map fun _ _ htype hbound => .returns (htype hbound)
  · exact (consumes_errorName s).map fun _ _ htokens _ => .bareBody rfl htokens
  · exact (consumes_errorName s).map fun _ _ htokens _ => .bareBody rfl htokens
  · exact (consumes_errorName s).map fun _ _ htokens _ => .bareBody rfl htokens
  · exact hbare rfl
  · exact hbare rfl
  · exact hbare rfl
  · exact hbare rfl
  · exact (consumes_apiVisibility s).map fun _ _ htokens _ => .bareBody rfl htokens
  · exact hbare rfl

end

/-! ### Constructs in each other -/

/-- What the programs that contain themselves consume, given the bound `n`. If it is great enough
for the tokens ahead, these make what the programs give. -/
structure Makes (n : Nat) : Prop where
  content : ∀ (scope : Scope) (s : TagState), Consumes (content n scope) s fun tokens nodes =>
    2 * s.rest.length + 1 ≤ n → MadeOf (.content scope nodes) tokens ∧
      (scope = .block → s.rest ≠ [] → s.atMarker = false → tokens ≠ [])
  items : ∀ (close : DocKind) (s : TagState), Consumes (items n close) s fun tokens items =>
    2 * s.rest.length + 1 ≤ n → MadeOf (.items close items) tokens
  expression : ∀ bound, 2 * bound ≤ n → MakesExpr (expression n) bound
  inlineTag : ∀ s : TagState, Consumes (inlineTag n) s fun tokens t =>
    2 * s.rest.length ≤ n → s.kind? = some .lbrace → s.secondKind? = some .tag →
      MadeOf (.inlineTag t) tokens
  tag : ∀ (scope : Scope) (s : TagState), Consumes (tag n scope) s fun tokens t =>
    2 * s.rest.length ≤ n → s.kind? = some .tag → MadeOf (.tag scope t) tokens

namespace Makes

variable {n : Nat} {β : Type}

theorem length_pos_of_kind? {kind : DocKind} (h : s.kind? = some kind) : 0 < s.rest.length := by
  obtain ⟨t, rest, hrest, -⟩ := TagState.rest_ne_nil_of_kind? h
  rw [hrest]
  exact Nat.succ_pos _

theorem zero : Makes 0 where
  content scope s := .pure fun h => absurd h (Nat.not_succ_le_zero _)
  items close s := .pure fun h => absurd h (Nat.not_succ_le_zero _)
  expression bound h s := .get (.pure fun hbound hopen => by
    have hpos : 0 < s.rest.length := hopen.elim length_pos_of_kind? length_pos_of_kind?
    omega)
  inlineTag s := .pure fun h hopen => by
    have hpos := length_pos_of_kind? hopen
    omega
  tag scope s := .pure fun h hopen => by
    have hpos := length_pos_of_kind? hopen
    omega

/-- What stands between delimiters is recorded up to the one that closes, or up to where it is cut
off. -/
theorem delimited (h : Makes n) {bound : Nat} (hn : 2 * bound ≤ n + 1) (d : Delimiter)
    (s : TagState) : Consumes (do
      take
      let result ← recording (nested (TagReader.items n d.closes))
      takeKind d.closes
      pure result) s fun tokens r => s.rest.length ≤ bound → s.rest ≠ [] →
        ∃ first inside close rest, tokens = first :: (inside ++ close) ∧ s.rest = first :: rest ∧
          MadeOf (.items d.closes r.1) inside ∧ Closes d.closes close ∧
          r.2 = flatDocText inside := by
  refine (consumes_take s).bind fun front _ mid _ hrest =>
    (h.items d.closes mid.beginRecording.deeper).nested.recording.bind fun inside r mid' _ _ =>
    (consumes_takeKind d.closes mid').bind fun close _ _ _ _ =>
    .pure fun hclose hinside hfront hbound hne => ?_
  obtain ⟨first, rest, hfirst⟩ := List.exists_cons_of_ne_nil hne
  have hfront : front = [first] := by rw [hfront, hfirst]; rfl
  rw [hrest, List.length_append, hfront, List.length_singleton] at hbound
  have hitems : MadeOf (.items d.closes r.1) inside :=
    hinside.1 (show 2 * mid.rest.length + 1 ≤ n by omega)
  refine ⟨first, inside, close, rest, ?_, hfirst, hitems, hclose, hinside.2⟩
  rw [hfront, List.append_nil]
  rfl

theorem expression_succ (h : Makes n) {bound : Nat} (hn : 2 * bound ≤ n + 1) :
    MakesExpr (TagReader.expression (n + 1)) bound := by
  intro s
  have hexpr (d : Delimiter) : Consumes (do
      let r ← spanned do
        take
        let result ← recording (nested (TagReader.items n d.closes))
        takeKind d.closes
        pure result
      return (⟨d, r.1.1, r.1.2, r.2⟩ : DocExpr)) s fun tokens e =>
        s.rest.length ≤ bound → s.kind? = some d.opens → MadeOf (.expr e) tokens := by
    refine (h.delimited hn d s).spanned.bind fun tokens r mid hmid hrest =>
      .pure fun ⟨hmade, hspan⟩ hbound hopen => ?_
    obtain ⟨t, rest, hfirst, hkind⟩ := TagState.rest_ne_nil_of_kind? hopen
    obtain ⟨first, inside, close, _, rfl, hfirst', hitems, hclose, htext⟩ :=
      hmade hbound (hfirst ▸ List.cons_ne_nil t rest)
    cases hfirst.symm.trans hfirst'
    rw [List.append_nil, htext, hspan, TagState.between_place hrest]
    exact .expr hkind hitems hclose
  unfold TagReader.expression
  refine .at? ?_
  cases hbracket : s.kind? == some .lbracket with
  | true =>
    exact (hexpr .bracket).mono fun tokens e hmade hbound _ => hmade hbound (eq_of_beq hbracket)
  | false =>
    refine (hexpr .brace).mono fun tokens e hmade hbound hopen => hmade hbound ?_
    exact hopen.resolve_right fun hkind => by
      rw [hkind] at hbracket
      cases hbracket

/-- A reference after a `#`. -/
theorem consumes_hash {t : DocToken} {rest : List DocToken} (hrest : s.rest = t :: rest)
    (hname : s.secondKind? = some .identifier) (f : Reference → β) :
    Consumes (do take; f <$> reference) s fun tokens b =>
      ∃ r more, b = f r ∧ tokens = t :: more ∧ ReferenceOf more r := by
  refine (consumes_take_cons hrest).bind fun one _ mid hmid _ =>
    (consumes_reference mid).map fun more r href hone => ?_
  subst hone hmid
  exact ⟨r, more, rfl, rfl, href ((TagState.kind?_after_one hrest).trans hname)⟩

/-- One item is read, and then the others. -/
theorem items_cons (h : Makes n) {close : DocKind} {m : TagReader ExprItem}
    (hm : Consumes m s fun tokens item => 2 * s.rest.length ≤ n →
      MadeOf (.item close item) tokens ∧ tokens ≠ []) :
    Consumes (do
      let item ← m
      Pure.pure (item :: (← TagReader.items n close))) s fun tokens items =>
        2 * s.rest.length + 1 ≤ n + 1 → MadeOf (.items close items) tokens := by
  refine hm.bind fun tokens item mid _ hmid => (h.items close mid).bind
    fun more items _ _ _ => .pure fun hmore hitem hn => ?_
  obtain ⟨hitem, hne⟩ := hitem (by omega)
  have hpos := List.length_pos_iff.2 hne
  rw [hmid, List.length_append] at hn
  rw [List.append_nil]
  exact .items hitem (hmore (by omega))

theorem items_succ (h : Makes n) (close : DocKind) (s : TagState) :
    Consumes (TagReader.items (n + 1) close) s fun tokens items =>
      2 * s.rest.length + 1 ≤ n + 1 → MadeOf (.items close items) tokens := by
  unfold TagReader.items
  refine .get ?_
  split
  · exact .pure fun _ => .noItem close
  · rename_i t rest hrest
    have hkind? : s.kind? = some t.kind := TagState.kind?_eq hrest
    refine .ite (fun _ => .pure fun _ => .noItem close) fun hgo => ?_
    refine .ite (fun hlayout => ?_) fun hlayout => ?_
    · refine (consumes_take_cons hrest).bind fun one _ mid _ hmid => (h.items close mid).mono
        fun more items hmore hone hn => ?_
      subst hone
      rw [hmid, List.length_append, List.length_singleton] at hn
      exact .layout hlayout (hmore (by omega))
    refine .ite (fun hopen => h.items_cons ?_) fun htag =>
      .ite (fun hopen => h.items_cons ?_) fun hopen =>
      .ite (fun hhash => h.items_cons (m := do take; ExprItem.hash <$> reference) ?_) fun hhash =>
      .ite (fun hname => h.items_cons ?_) fun hname =>
      h.items_cons (m := do take; Pure.pure (itemToken t)) ?_
    · refine (h.inlineTag s).map fun tokens tag htag hn => ?_
      have htag := htag hn (hkind?.trans (congrArg some hopen.1)) hopen.2
      exact ⟨.tagItem htag, htag.ne_nil_of_inlineTag⟩
    · refine (h.expression (n / 2) (by omega) s).map fun tokens e hexpr hn => ?_
      have hexpr := hexpr (by omega) (hopen.imp (fun h => hkind?.trans (congrArg some h))
        fun h => hkind?.trans (congrArg some h))
      exact ⟨.nestedItem hexpr, hexpr.ne_nil_of_expr⟩
    · refine (consumes_hash hrest hhash.2 ExprItem.hash).mono fun tokens item hitem _ => ?_
      obtain ⟨r, more, rfl, rfl, href⟩ := hitem
      exact ⟨.hashItem hhash.1 href, List.cons_ne_nil t more⟩
    · refine (consumes_reference s).map fun tokens r href _ => ?_
      have href := href (hkind?.trans (congrArg some hname))
      exact ⟨.nameItem href, DocPart.MadeOf.ne_nil_of_referenceOf href⟩
    · refine (consumes_take_cons hrest).bind fun one _ _ _ _ => .pure fun hone _ => ?_
      subst hone
      refine ⟨.tokenItem (fun hclose => hgo (Or.inl hclose)) ⟨?_, ?_⟩, List.cons_ne_nil t []⟩
      · exact Bool.eq_false_iff.2 hlayout
      · simp only [List.mem_cons, List.not_mem_nil, or_false, not_or]
        exact ⟨fun h => hopen (Or.inl h), fun h => hopen (Or.inr h), hname⟩

/-- One piece of content is read, and then the others. -/
theorem content_cons (h : Makes n) {scope : Scope} {m : TagReader ContentNode}
    (hm : Consumes m s fun tokens node => 2 * s.rest.length ≤ n →
      MadeOf (.node scope node) tokens ∧ tokens ≠ []) :
    Consumes (do
      let node ← m
      Pure.pure (node.cons (← TagReader.content n scope))) s fun tokens nodes =>
        2 * s.rest.length + 1 ≤ n + 1 → MadeOf (.content scope nodes) tokens ∧
          (scope = .block → s.rest ≠ [] → s.atMarker = false → tokens ≠ []) := by
  refine hm.bind fun tokens node mid _ hmid => (h.content scope mid).bind
    fun more nodes _ _ _ => .pure fun hmore hnode hn => ?_
  obtain ⟨hnode, hne⟩ := hnode (by omega)
  have hpos := List.length_pos_iff.2 hne
  rw [hmid, List.length_append] at hn
  rw [List.append_nil]
  exact ⟨.content hnode (hmore (by omega)).1,
    fun _ _ _ => List.append_ne_nil_of_left_ne_nil hne more⟩

theorem content_succ (h : Makes n) (scope : Scope) (s : TagState) :
    Consumes (TagReader.content (n + 1) scope) s fun tokens nodes =>
      2 * s.rest.length + 1 ≤ n + 1 → MadeOf (.content scope nodes) tokens ∧
        (scope = .block → s.rest ≠ [] → s.atMarker = false → tokens ≠ []) := by
  unfold TagReader.content
  refine .get ?_
  split
  · rename_i hrest
    exact .pure fun _ => ⟨.noContent scope, fun _ hne => absurd hrest hne⟩
  · rename_i t rest hrest
    have hkind? : s.kind? = some t.kind := TagState.kind?_eq hrest
    refine .ite (fun hstop => .pure fun _ => ⟨.noContent scope, fun hscope _ hmarker => ?_⟩)
      fun hgo => ?_
    · rcases hstop with hstop | ⟨hstop, -⟩
      · rw [hmarker] at hstop
        cases hstop
      · rw [hscope] at hstop
        cases hstop
    have hexpr (hopen : s.kind? = some .lbrace ∨ s.kind? = some .lbracket) :
        Consumes (TagReader.expression n) s fun tokens e => 2 * s.rest.length ≤ n →
          MadeOf (.expr e) tokens ∧ tokens ≠ [] := by
      refine (h.expression (n / 2) (by omega) s).mono fun tokens e hexpr hn => ?_
      have hexpr := hexpr (by omega) hopen
      exact ⟨hexpr, hexpr.ne_nil_of_expr⟩
    refine .ite (fun hopen => h.content_cons ?_) fun htag =>
      .ite (fun hbrace => h.content_cons ?_) fun hbrace =>
      .ite (fun hbracket => h.content_cons ?_) fun hbracket =>
      .ite (fun hhash => h.content_cons (m := do take; ContentNode.hash <$> reference) ?_)
        fun hhash =>
      h.content_cons (m := do take; Pure.pure (contentToken scope t)) ?_
    · refine (h.inlineTag s).map fun tokens tag htag hn => ?_
      have htag := htag hn (hkind?.trans (congrArg some hopen.1)) hopen.2
      exact ⟨.tagNode htag, htag.ne_nil_of_inlineTag⟩
    · exact (hexpr (Or.inl (hkind?.trans (congrArg some hbrace)))).map fun _ _ hexpr hn =>
        (hexpr hn).imp_left .braceNode
    · exact (hexpr (Or.inr (hkind?.trans (congrArg some hbracket)))).map fun _ _ hexpr hn =>
        (hexpr hn).imp_left .bracketNode
    · refine (consumes_hash hrest hhash.2 ContentNode.hash).mono fun tokens node hnode _ => ?_
      obtain ⟨r, more, rfl, rfl, href⟩ := hnode
      exact ⟨.hashNode hhash.1 href, List.cons_ne_nil t more⟩
    · refine (consumes_take_cons hrest).bind fun one _ _ _ _ => .pure fun hone _ => ?_
      subst hone
      exact ⟨.tokenNode ⟨hbrace, hbracket⟩ fun hscope hclose => hgo (Or.inr ⟨hscope, hclose⟩),
        List.cons_ne_nil t []⟩

theorem tag_succ (h : Makes n) (scope : Scope) (s : TagState) :
    Consumes (TagReader.tag (n + 1) scope) s fun tokens t =>
      2 * s.rest.length ≤ n + 1 → s.kind? = some .tag → MadeOf (.tag scope t) tokens := by
  have hfields (marker : String) : Consumes (do
      take
      let body ← tagBody (TagReader.expression n) marker
      let content ← TagReader.content n scope
      pure (body, content)) s fun tokens p => 2 * s.rest.length ≤ n + 1 → s.rest ≠ [] →
        ∃ first front more rest, tokens = first :: (front ++ more) ∧ s.rest = first :: rest ∧
          MadeOf (.body p.1) front ∧ MadeOf (.content scope p.2) more := by
    refine (consumes_take s).bind fun one _ mid _ hrest =>
      (consumes_tagBody (h.expression (n / 2) (by omega)) marker mid).bind
        fun front body last _ hmid =>
      (h.content scope last).bind fun more content _ _ _ =>
      .pure fun hcontent hbody hone hn hne => ?_
    obtain ⟨first, rest, hfirst⟩ := List.exists_cons_of_ne_nil hne
    have hone : one = [first] := by rw [hone, hfirst]; rfl
    have hlast : last.rest.length ≤ mid.rest.length := by
      rw [hmid, List.length_append]
      omega
    rw [hrest, List.length_append, hone, List.length_singleton] at hn
    refine ⟨first, front, more, rest, ?_, hfirst, hbody (by omega), (hcontent (by omega)).1⟩
    rw [hone, List.append_nil]
    rfl
  unfold TagReader.tag
  refine .get ((hfields _).spanned.bind fun tokens p mid _ hrest =>
    .pure fun ⟨hmade, hspan⟩ hn hkind => ?_)
  obtain ⟨t, rest, hfirst, hkind⟩ := TagState.rest_ne_nil_of_kind? hkind
  obtain ⟨first, front, more, _, rfl, hfirst', hbody, hcontent⟩ :=
    hmade hn (hfirst ▸ List.cons_ne_nil t rest)
  cases hfirst.symm.trans hfirst'
  rw [List.append_nil, hspan, TagState.between_place hrest, hfirst]
  exact .tag hkind hbody hcontent

theorem inlineTag_succ (h : Makes n) (s : TagState) :
    Consumes (TagReader.inlineTag (n + 1)) s fun tokens t =>
      2 * s.rest.length ≤ n + 1 → s.kind? = some .lbrace → s.secondKind? = some .tag →
        MadeOf (.inlineTag t) tokens := by
  unfold TagReader.inlineTag
  refine (consumes_take s).bind fun one _ mid hmid hrest =>
    (h.tag .inline mid.deeper).nested.bind fun tokens t last _ _ =>
    (consumes_takeKind .rbrace last).bind fun close _ _ _ _ =>
    .pure fun hclose htag hone hn hopen hmarker => ?_
  obtain ⟨first, rest, hfirst, hkind⟩ := TagState.rest_ne_nil_of_kind? hopen
  have hone : one = [first] := by rw [hone, hfirst]; rfl
  subst hone hmid
  rw [hrest, List.length_append, List.length_singleton] at hn
  have htag : MadeOf (.tag .inline t) tokens :=
    htag (show 2 * (s.after 1).rest.length ≤ n by
      have hmid : (s.after [first].length).rest.length = (s.after 1).rest.length := rfl
      omega) ((TagState.kind?_after_one hfirst).trans hmarker)
  rw [List.append_nil]
  show MadeOf (.inlineTag t) (first :: (tokens ++ close))
  exact .inlineTag hkind htag hclose

theorem all (n : Nat) : Makes n := by
  induction n with
  | zero => exact zero
  | succ n ih =>
    exact {
      content := ih.content_succ
      items := ih.items_succ
      expression := fun _ => ih.expression_succ
      inlineTag := ih.inlineTag_succ
      tag := ih.tag_succ }

end Makes

/-! ### Whole comments -/

theorem consumes_skipLayout (s : TagState) :
    Consumes skipLayout s fun tokens _ => AllOf [.whitespace, .newline] tokens := by
  have hkind (s : TagState) (t : DocToken) (rest : List DocToken) (hrest : s.rest = t :: rest)
      (h : s.kind?.any DocKind.isLayout = true) : t.kind ∈ [DocKind.whitespace, .newline] := by
    rw [TagState.kind?_eq hrest, Option.any_some] at h
    revert h
    cases t.kind <;> decide
  refine (consumes_takeWhile hkind s).bind fun tokens _ mid _ _ => .pure fun h => ?_
  rw [List.append_nil]
  exact h.2

theorem consumes_description (n : Nat) (s : TagState) :
    Consumes (description n) s fun tokens t => 2 * s.rest.length + 1 ≤ n → s.rest ≠ [] →
      s.atMarker = false → TopTagOf tokens t ∧ tokens ≠ [] := by
  refine ((Makes.all n).content .block s).spanned.bind fun tokens r mid _ hrest =>
    .pure fun ⟨hcontent, hspan⟩ hn hne hmarker => ?_
  obtain ⟨hcontent, htokens⟩ := hcontent hn
  obtain ⟨first, more, rfl⟩ := List.exists_cons_of_ne_nil (htokens rfl hne hmarker)
  rw [List.append_nil, hspan, TagState.between_place hrest]
  exact ⟨.description hcontent, List.cons_ne_nil first more⟩

/-- A tag is read after layout, or nothing is left but layout. -/
theorem consumes_nextTag (s : TagState) :
    Consumes nextTag s fun tokens t? =>
      match t? with
      | none => tokens = s.rest ∧ AllOf [.whitespace, .newline] tokens
      | some t => ∃ layout more, tokens = layout ++ more ∧
          AllOf [.whitespace, .newline] layout ∧ TopTagOf more t ∧ more ≠ [] := by
  refine (consumes_skipLayout s).bind fun layout _ mid _ hrest => .get ?_
  dsimp only
  split
  · rename_i hnone
    have hmid : mid.rest = [] := by
      cases hmid : mid.rest with
      | nil => rfl
      | cons t rest =>
        rw [TagState.kind?_eq hmid] at hnone
        cases hnone
    refine .pure fun hlayout => ?_
    rw [hrest, hmid, List.append_nil]
    exact ⟨rfl, hlayout⟩
  · rename_i hkind
    refine ((Makes.all _).tag .block mid).map fun tokens t htag hlayout => ?_
    have htag := htag (by omega) hkind
    exact ⟨layout, tokens, rfl, hlayout, .marked htag, htag.ne_nil_of_tag⟩
  · rename_i kind hother hkind
    obtain ⟨t, rest, hmid, -⟩ := TagState.rest_ne_nil_of_kind? hkind
    have hmarker : mid.atMarker = false := by
      have hne : kind ≠ .tag := hother
      rw [TagState.atMarker, hkind]
      simp [hne]
    refine (consumes_description _ mid).map fun tokens t htag hlayout => ?_
    obtain ⟨htag, hne⟩ := htag (by omega) (hmid ▸ List.cons_ne_nil _ _) hmarker
    exact ⟨layout, tokens, rfl, hlayout, htag, hne⟩

/-- If there may be as many tags as there are tokens, all tokens are consumed. -/
theorem consumes_tagsUpTo (n : Nat) (s : TagState) :
    Consumes (tagsUpTo n) s fun tokens tags =>
      s.rest.length ≤ n → tokens = s.rest ∧ TagsOf tokens tags := by
  induction n generalizing s with
  | zero =>
    refine .pure fun h => ?_
    rw [List.eq_nil_of_length_eq_zero (Nat.le_zero.1 h)]
    exact ⟨rfl, .nil (allOf_nil _)⟩
  | succ n ih =>
    refine (consumes_nextTag s).bind fun tokens t? mid _ hrest => ?_
    cases t? with
    | none =>
      refine .pure fun hnone _ => ?_
      rw [List.append_nil]
      exact ⟨hnone.1, .nil hnone.2⟩
    | some t =>
      refine (ih mid).bind fun more tags _ _ _ => .pure fun hmore htag hn => ?_
      obtain ⟨layout, front, rfl, hlayout, htag, hne⟩ := htag
      have hpos := List.length_pos_iff.2 hne
      rw [hrest, List.length_append, List.length_append] at hn
      obtain ⟨hall, htags⟩ := hmore (by omega)
      rw [List.append_nil, hrest, hall]
      refine ⟨rfl, ?_⟩
      rw [← hall, List.append_assoc]
      exact .cons hlayout htag htags

/-! ### Every program -/

/-- The programs that a comment is read by, with any bound on how deep the calls may go. -/
inductive ParsingProgram : {α : Type} → TagReader α → Prop where
  | skipBlanks : ParsingProgram skipBlanks
  | skipLayout : ParsingProgram skipLayout
  | dottedName : ParsingProgram dottedName
  | arguments : ParsingProgram arguments
  | reference : ParsingProgram reference
  | word : ParsingProgram word
  | skipDash : ParsingProgram skipDash
  | errorName : ParsingProgram errorName
  | apiVisibility : ParsingProgram apiVisibility
  | bracketedParam : ParsingProgram bracketedParam
  | plainParam : ParsingProgram plainParam
  | typeConstraint (n : Nat) : ParsingProgram (typeConstraint (expression n))
  | param (n : Nat) : ParsingProgram (param (expression n))
  | linkTarget (n : Nat) : ParsingProgram (linkTarget (expression n))
  | link (n : Nat) : ParsingProgram (link (expression n))
  | tagBody (n : Nat) (marker : String) : ParsingProgram (tagBody (expression n) marker)
  | content (n : Nat) (scope : Scope) : ParsingProgram (content n scope)
  | items (n : Nat) (close : DocKind) : ParsingProgram (items n close)
  | expression (n : Nat) : ParsingProgram (expression n)
  | inlineTag (n : Nat) : ParsingProgram (inlineTag n)
  | tag (n : Nat) (scope : Scope) : ParsingProgram (tag n scope)
  | description (n : Nat) : ParsingProgram (description n)
  | nextTag : ParsingProgram nextTag
  | tagsUpTo (n : Nat) : ParsingProgram (tagsUpTo n)

/-- Each of them consumes tokens, whatever is ahead and whatever is open. -/
theorem ParsingProgram.consumes {α : Type} {m : TagReader α} (h : ParsingProgram m)
    (s : TagState) : Consumes m s := by
  have hexpr (n : Nat) : MakesExpr (TagReader.expression n) (n / 2) :=
    (Makes.all n).expression (n / 2) (by omega)
  cases h with
  | skipBlanks => exact (consumes_skipBlanks s).weaken
  | skipLayout => exact (consumes_skipLayout s).weaken
  | dottedName => exact (consumes_dottedName s).weaken
  | arguments => exact (consumes_arguments s).weaken
  | reference => exact (consumes_reference s).weaken
  | word => exact (consumes_word s).weaken
  | skipDash => exact (consumes_skipDash s).weaken
  | errorName => exact (consumes_errorName s).weaken
  | apiVisibility => exact (consumes_apiVisibility s).weaken
  | bracketedParam => exact (consumes_bracketedParam s).weaken
  | plainParam => exact (consumes_plainParam s).weaken
  | typeConstraint n => exact (consumes_typeConstraint (hexpr n) s).weaken
  | param n => exact (consumes_param (hexpr n) s).weaken
  | linkTarget n => exact (consumes_linkTarget (hexpr n) s).weaken
  | link n => exact (consumes_link (hexpr n) s).weaken
  | tagBody n marker => exact (consumes_tagBody (hexpr n) marker s).weaken
  | content n scope => exact ((Makes.all n).content scope s).weaken
  | items n close => exact ((Makes.all n).items close s).weaken
  | expression n => exact (hexpr n s).weaken
  | inlineTag n => exact ((Makes.all n).inlineTag s).weaken
  | tag n scope => exact ((Makes.all n).tag scope s).weaken
  | description n => exact (consumes_description n s).weaken
  | nextTag => exact (consumes_nextTag s).weaken
  | tagsUpTo n => exact (consumes_tagsUpTo n s).weaken

end TagReader

/-- The tags of a comment are made of its tokens, without its delimiters and what decorates it, and
every text that is recorded in them is the text of the tokens that it is recorded from, with one
blank for each longest run of layout. Every program that a comment is read by leaves as many
recordings open as there were, fed with just the tokens that it has consumed, wherever it is begun
and whatever cuts it off. -/
theorem parseComment_recorded (text : String) (start : Position) :
    TagsOf ((lexDoc text start).1.filter fun t => !t.isTrivia) (parseComment text start).tags ∧
      ∀ (α : Type) (m : TagReader α), TagReader.ParsingProgram m → ∀ s : TagState,
        (m.run s).2.recordings.length = s.recordings.length ∧
          ∃ tokens, s.rest = tokens ++ (m.run s).2.rest ∧
            (m.run s).2.recordings = s.recordings.map (recordTokens tokens) := by
  refine ⟨?_, fun α m hm s => ?_⟩
  · let tokens := (lexDoc text start).1.filter fun t => !t.isTrivia
    let s : TagState := { rest := tokens, stop := start }
    obtain ⟨consumed, left, -, -, htags⟩ := TagReader.consumes_tagsUpTo tokens.length s
    have hsolid : s.Solid := fun t ht => lexDoc_isSolid t (List.mem_of_mem_filter ht)
    obtain ⟨hall, htags⟩ := htags hsolid (Nat.le_refl _)
    rw [hall] at htags
    exact htags
  · obtain ⟨tokens, hrest, hrecordings⟩ := (hm.consumes s).recordings
    refine ⟨?_, tokens, hrest, hrecordings⟩
    rw [hrecordings, List.length_map]

end SqlDoc

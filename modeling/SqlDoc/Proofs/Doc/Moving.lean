/-
# Comments are read alike wherever they stand

The programs that read a comment put the places of its tokens into the spans of what they give, and
look at no place. So a program that is carried out on tokens without places gives what it gives on
the tokens themselves, without places (`TagReader.Follows`), and the tags of a comment differ in
their places only if the comment stands elsewhere (`parseComment_moved`).

Key definitions: `Tag.unplaced`, `TagState.unplaced`, `TagReader.Follows`.
Key theorems: `Tag.text_unplaced`, `Follows.bind`, `FollowsTo.all`, `parseComment_moved`.
-/
import SqlDoc.Proofs.Doc.Taking
import SqlDoc.Proofs.Lexer.Alike

namespace SqlDoc

/-! ### Tags without places -/

mutual

/-- The expression without places. -/
def DocExpr.unplaced : DocExpr → DocExpr
  | ⟨delimiter, items, text, _⟩ => ⟨delimiter, unplacedItems items, text, .point .start⟩

/-- The items without places. -/
def unplacedItems : List ExprItem → List ExprItem
  | [] => []
  | item :: rest => item.unplaced :: unplacedItems rest

/-- The item without places. -/
def ExprItem.unplaced : ExprItem → ExprItem
  | .inlineTag tag => .inlineTag tag.unplaced
  | .reference ref => .reference ref
  | .hash ref => .hash ref
  | .literal text => .literal text
  | .nested expr => .nested expr.unplaced
  | .punct text => .punct text

/-- The target without places. -/
def LinkTarget.unplaced : LinkTarget → LinkTarget
  | .url url => .url url
  | .hash ref => .hash ref
  | .identifier ref => .identifier ref
  | .expression expr => .expression expr.unplaced
  | .missing => .missing

/-- The datatype without places. -/
def unplacedType : Option DocExpr → Option DocExpr
  | none => none
  | some type => some type.unplaced

/-- The fields without places. -/
def TagBody.unplaced : TagBody → TagBody
  | .description => .description
  | .param name type default isOptional => .param name (unplacedType type) default isOptional
  | .returns type => .returns (unplacedType type)
  | .link target reference => .link target.unplaced reference
  | .throws name => .throws name
  | .visibility value => .visibility value
  | .generic => .generic

/-- The piece of content without places. -/
def ContentNode.unplaced : ContentNode → ContentNode
  | .text text => .text text
  | .newline => .newline
  | .brace expr => .brace expr.unplaced
  | .bracket expr => .bracket expr.unplaced
  | .hash ref => .hash ref
  | .inlineTag tag => .inlineTag tag.unplaced
  | .literal text => .literal text

/-- The content without places. -/
def unplacedContent : List ContentNode → List ContentNode
  | [] => []
  | node :: rest => node.unplaced :: unplacedContent rest

/-- The tag without places. -/
def Tag.unplaced : Tag → Tag
  | ⟨marker, body, content, _⟩ => ⟨marker, body.unplaced, unplacedContent content, .point .start⟩

end

theorem DocExpr.text_unplaced (e : DocExpr) : e.unplaced.text = e.text := by
  cases e
  rfl

theorem map_text_unplacedType (type : Option DocExpr) :
    (unplacedType type).map (·.text) = type.map (·.text) := by
  cases type with
  | none => rfl
  | some type => exact congrArg some type.text_unplaced

mutual

/-- What content reads as does not depend on places. -/
theorem writtenContent_unplaced :
    ∀ content : List ContentNode, writtenContent (unplacedContent content) = writtenContent content
  | [] => rfl
  | .text text :: rest => congrArg (text ++ ·) (writtenContent_unplaced rest)
  | .newline :: rest => congrArg ("\n" ++ ·) (writtenContent_unplaced rest)
  | .literal text :: rest => congrArg (text ++ ·) (writtenContent_unplaced rest)
  | .brace expr :: rest => by
    rw [unplacedContent, ContentNode.unplaced, writtenContent, writtenContent, expr.text_unplaced,
      writtenContent_unplaced rest]
  | .bracket expr :: rest => by
    rw [unplacedContent, ContentNode.unplaced, writtenContent, writtenContent, expr.text_unplaced,
      writtenContent_unplaced rest]
  | .hash ref :: rest => congrArg ("#" ++ ref.text ++ ·) (writtenContent_unplaced rest)
  | .inlineTag tag :: rest => by
    rw [unplacedContent, ContentNode.unplaced, writtenContent, writtenContent,
      Tag.displayText_unplaced tag, writtenContent_unplaced rest]

theorem Tag.displayText_unplaced : ∀ tag : Tag, tag.unplaced.displayText = tag.displayText
  | ⟨_, body, content, _⟩ => by
    have hcontent := writtenContent_unplaced content
    cases body <;>
      simp only [Tag.unplaced, TagBody.unplaced, Tag.displayText, hcontent]

end

namespace Tag

variable (t : Tag)

@[simp] theorem text_unplaced : t.unplaced.text = t.text := by
  obtain ⟨marker, body, content, span⟩ := t
  exact congrArg (fun text : String => String.ofList (Text.tidyLines text.toList))
    (writtenContent_unplaced content)

@[simp] theorem body_unplaced : t.unplaced.body = t.body.unplaced := by
  cases t
  rfl

@[simp] theorem span_unplaced : t.unplaced.span = .point .start := by
  cases t
  rfl

end Tag

theorem ContentNode.cons_unplaced (node : ContentNode) (rest : List ContentNode) :
    unplacedContent (node.cons rest) = node.unplaced.cons (unplacedContent rest) := by
  cases node with
  | text first =>
    cases rest with
    | nil => rfl
    | cons second rest => cases second <;> rfl
  | _ => rfl

/-! ### Programs on tokens without places -/

namespace TagState

/-- The state without places. -/
def unplaced (s : TagState) : TagState :=
  { s with rest := s.rest.map .unplaced, stop := .start }

variable {s : TagState} {t : DocToken} {rest : List DocToken}

theorem rest_unplaced (h : s.rest = t :: rest) :
    s.unplaced.rest = t.unplaced :: rest.map .unplaced := by
  rw [unplaced, h, List.map_cons]

theorem take_unplaced (s : TagState) : s.unplaced.take = s.take.unplaced := by
  obtain ⟨rest, _⟩ := s
  cases rest <;> rfl

@[simp] theorem kind?_unplaced (s : TagState) : s.unplaced.kind? = s.kind? := by
  obtain ⟨rest, _⟩ := s
  cases rest <;> rfl

@[simp] theorem secondKind?_unplaced (s : TagState) : s.unplaced.secondKind? = s.secondKind? := by
  obtain ⟨rest, _⟩ := s
  rcases rest with _ | ⟨t, _ | ⟨u, rest⟩⟩ <;> rfl

@[simp] theorem atMarker_unplaced (s : TagState) : s.unplaced.atMarker = s.atMarker := by
  rw [atMarker, kind?_unplaced]
  rfl

theorem place_unplaced (s : TagState) : s.unplaced.place = .start := by
  obtain ⟨rest, _⟩ := s
  cases rest <;> rfl

theorem endRecording_unplaced (s : TagState) :
    s.unplaced.endRecording = (s.endRecording.1, s.endRecording.2.unplaced) := by
  obtain ⟨_, _, _, _, _, recordings⟩ := s
  cases recordings <;> rfl

theorem takeWhile_nil (p : TagState → Bool) (h : s.rest = []) : s.takeWhile p = ([], s) := by
  rw [takeWhile.eq_def]
  split <;> simp_all

theorem takeWhile_cons (p : TagState → Bool) (h : s.rest = t :: rest) :
    s.takeWhile p =
      if p s then
        (t :: ((s.pass t rest).takeWhile p).1, ((s.pass t rest).takeWhile p).2)
      else ([], s) := by
  rw [takeWhile.eq_def]
  split <;> simp_all

theorem takeWhile_unplaced {p : TagState → Bool} (hp : ∀ s : TagState, p s.unplaced = p s)
    (s : TagState) : s.unplaced.takeWhile p =
      ((s.takeWhile p).1.map .unplaced, (s.takeWhile p).2.unplaced) := by
  fun_induction takeWhile p s with
  | case1 s h => rw [takeWhile_nil p (by rw [unplaced, h]; rfl), List.map_nil]
  | case2 s t rest h hif more next heq ih =>
    have hpass : s.unplaced.pass t.unplaced (rest.map .unplaced) = (s.pass t rest).unplaced := rfl
    rw [takeWhile_cons p (rest_unplaced h), hp, if_pos hif, hpass, ih, heq, List.map_cons]
  | case3 s t rest h hif => rw [takeWhile_cons p (rest_unplaced h), hp, if_neg hif, List.map_nil]

end TagState

namespace TagReader

variable {α β : Type}

/-- Carried out without places, `q` gives what `p` gives, with `erase` taking the places from it,
and leaves what `p` leaves. -/
def Follows (erase : α → α) (p q : TagReader α) : Prop :=
  ∀ s : TagState, q.run s.unplaced = (erase (p.run s).1, (p.run s).2.unplaced)

/-- The program gives the same without places. -/
abbrev Steady (p : TagReader α) : Prop :=
  Follows id p p

namespace Follows

variable {e : α → α} {e' : β → β} {p q : TagReader α} {f g : α → TagReader β}

theorem pure (a : α) : Follows e (Pure.pure a) (Pure.pure (e a)) :=
  fun _ => rfl

theorem bind (hp : Follows e p q) (hf : ∀ a, Follows e' (f a) (g (e a))) :
    Follows e' (p >>= f) (q >>= g) := by
  intro s
  show (g (q.run s.unplaced).1).run (q.run s.unplaced).2 = _
  rw [hp s]
  exact hf _ _

theorem map {h h' : α → β} (hp : Follows e p q) (hh : ∀ a, h' (e a) = e' (h a)) :
    Follows e' (h <$> p) (h' <$> q) := by
  intro s
  show (h' (q.run s.unplaced).1, (q.run s.unplaced).2) = _
  rw [hp s, hh]
  rfl

theorem ite {c : Prop} [Decidable c] {p' q' : TagReader α} (hp : Follows e p q)
    (hp' : Follows e p' q') : Follows e (if c then p else p') (if c then q else q') := by
  split
  · exact hp
  · exact hp'

end Follows

theorem follows_get : Follows TagState.unplaced get get :=
  fun _ => rfl

theorem steady_modify {g : TagState → TagState} (hg : ∀ s, g s.unplaced = (g s).unplaced) :
    Steady (modify g) :=
  fun s => congrArg (Prod.mk ()) (hg s)

theorem steady_take : Steady take :=
  steady_modify TagState.take_unplaced

theorem steady_at? (kind : DocKind) : Steady (at? kind) :=
  follows_get.bind fun s => by
    rw [s.kind?_unplaced]
    exact .pure _

theorem steady_secondIs (kind : DocKind) : Steady (secondIs kind) :=
  follows_get.bind fun s => by
    rw [s.secondKind?_unplaced]
    exact .pure _

theorem steady_takeKind (kind : DocKind) : Steady (takeKind kind) :=
  (steady_at? kind).bind fun _ => .ite steady_take (.pure ())

theorem follows_takeWhile {p : TagState → Bool} (hp : ∀ s : TagState, p s.unplaced = p s) :
    Follows (List.map Token.unplaced) (takeWhile p) (takeWhile p) :=
  TagState.takeWhile_unplaced hp

theorem steady_skipBlanks : Steady skipBlanks :=
  (follows_takeWhile fun s => by rw [s.kind?_unplaced]).bind fun _ => .pure ()

theorem steady_skipLayout : Steady skipLayout :=
  (follows_takeWhile fun s => by rw [s.kind?_unplaced]).bind fun _ => .pure ()

section

variable {e : α → α} {p q : TagReader α}

theorem Follows.recording (hp : Follows e p q) :
    Follows (fun r => (e r.1, r.2)) (recording p) (recording q) :=
  (steady_modify (g := TagState.beginRecording) fun _ => rfl).bind fun _ => hp.bind fun _ =>
    Follows.bind (e := id) TagState.endRecording_unplaced fun _ => .pure _

theorem Follows.nested (hp : Follows e p q) : Follows e (nested p) (nested q) :=
  (steady_modify (g := fun s => { s with depth := s.depth + 1 }) fun _ => rfl).bind fun _ =>
    hp.bind fun _ =>
      (steady_modify (g := fun s => { s with depth := s.depth - 1 }) fun _ => rfl).bind fun _ =>
        .pure _

/-- The spans of what is read have no places. -/
theorem Follows.spanned (hp : Follows e p q) :
    Follows (fun r => (e r.1, .point .start)) (spanned p) (spanned q) := by
  refine follows_get.bind fun s => ?_
  rw [s.place_unplaced]
  exact hp.bind fun _ => follows_get.bind fun _ => .pure _

end

/-! ### Names and values -/

theorem docText_unplaced (tokens : List DocToken) :
    docText (tokens.map .unplaced) = docText tokens := by
  rw [docText, docText, tokensText, tokensText, List.map_map]
  rfl

theorem qualifiers_cons {s : TagState} {dot name : DocToken} {rest : List DocToken}
    (h : s.rest = dot :: name :: rest) :
    qualifiers s =
      if dot.kind = .dot ∧ name.kind = .identifier then
        let next := qualifiers ((s.pass dot (name :: rest)).pass name rest)
        (dot :: name :: next.1, next.2)
      else ([], s) := by
  rw [qualifiers.eq_def]
  split <;> simp_all

theorem qualifiers_nil {s : TagState} (h : ∀ dot name rest, s.rest ≠ dot :: name :: rest) :
    qualifiers s = ([], s) := by
  rw [qualifiers.eq_def]
  split
  · exact absurd ‹_› (h _ _ _)
  · rfl

theorem follows_qualifiers : Follows (List.map Token.unplaced) qualifiers qualifiers := by
  intro s
  show qualifiers s.unplaced = ((qualifiers s).1.map .unplaced, (qualifiers s).2.unplaced)
  fun_induction qualifiers s with
  | case1 s dot name rest h hkind more next heq ih =>
    have hrest : s.unplaced.rest = dot.unplaced :: name.unplaced :: rest.map .unplaced :=
      TagState.rest_unplaced h
    have hpass : (s.unplaced.pass dot.unplaced (name.unplaced :: rest.map .unplaced)).pass
        name.unplaced (rest.map .unplaced) =
          ((s.pass dot (name :: rest)).pass name rest).unplaced := rfl
    have hkind : dot.unplaced.kind = .dot ∧ name.unplaced.kind = .identifier := hkind
    rw [qualifiers_cons hrest, if_pos hkind, hpass, ih, heq]
    rfl
  | case2 s dot name rest h hkind =>
    rw [qualifiers_cons (TagState.rest_unplaced h)]
    exact if_neg hkind
  | case3 s h =>
    refine qualifiers_nil fun dot name rest hrest => ?_
    obtain ⟨dot, tail, hdot, -, htail⟩ := List.map_eq_cons_iff.1 hrest
    obtain ⟨name, rest, rfl, -, -⟩ := List.map_eq_cons_iff.1 htail
    exact h dot name rest hdot

theorem steady_dottedName : Steady dottedName := by
  refine follows_get.bind fun s => ?_
  obtain ⟨rest, _⟩ := s
  cases rest with
  | nil => exact .pure _
  | cons t rest =>
    refine .ite (.pure _) (steady_take.bind fun _ => follows_qualifiers.bind fun more => ?_)
    have htext : docText (t.unplaced :: more.map .unplaced) = docText (t :: more) :=
      docText_unplaced (t :: more)
    rw [htext]
    exact .pure _

theorem argumentsFrom_nil {s : TagState} (depth : Nat) (h : s.rest = []) :
    argumentsFrom depth s = ([s.endRecording.1], s.endRecording.2) := by
  rw [argumentsFrom.eq_def]
  split <;> simp_all

theorem argumentsFrom_cons {s : TagState} {t : DocToken} {rest : List DocToken} (depth : Nat)
    (h : s.rest = t :: rest) :
    argumentsFrom depth s =
      if s.atMarker ∨ (t.kind = .rparen ∧ depth = 0) then ([s.endRecording.1], s.endRecording.2)
      else if t.kind = .comma ∧ depth = 0 then
        let next := argumentsFrom 0 (s.endRecording.2.pass t rest).beginRecording
        (s.endRecording.1 :: next.1, next.2)
      else
        argumentsFrom
          (match t.kind with
          | .lparen => depth + 1
          | .rparen => depth - 1
          | _ => depth) (s.pass t rest) := by
  rw [argumentsFrom.eq_def]
  split
  · rename_i hnil
    rw [h] at hnil
    cases hnil
  · rename_i t' rest' hrest
    obtain ⟨rfl, rfl⟩ := List.cons.inj (hrest.symm.trans h)
    rfl

theorem steady_argumentsFrom (depth : Nat) : Steady (argumentsFrom depth) := by
  intro s
  show argumentsFrom depth s.unplaced =
    ((argumentsFrom depth s).1, (argumentsFrom depth s).2.unplaced)
  fun_induction argumentsFrom depth s with
  | case1 depth s h text next heq =>
    rw [argumentsFrom_nil depth (by rw [TagState.unplaced, h]; rfl), s.endRecording_unplaced, heq]
  | case2 depth s t rest h hstop text next heq =>
    have hstop : s.unplaced.atMarker ∨ t.unplaced.kind = .rparen ∧ depth = 0 := by
      rw [s.atMarker_unplaced]
      exact hstop
    rw [argumentsFrom_cons depth (TagState.rest_unplaced h), if_pos hstop,
      s.endRecording_unplaced, heq]
  | case3 depth s t rest h hstop hcomma text next heq more last hmore ih =>
    have hstop : ¬ (s.unplaced.atMarker ∨ t.unplaced.kind = .rparen ∧ depth = 0) := by
      rw [s.atMarker_unplaced]
      exact hstop
    have hcomma : t.unplaced.kind = .comma ∧ depth = 0 := hcomma
    have hpass : (next.unplaced.pass t.unplaced (rest.map .unplaced)).beginRecording =
        (next.pass t rest).beginRecording.unplaced := rfl
    rw [argumentsFrom_cons depth (TagState.rest_unplaced h), if_neg hstop, if_pos hcomma,
      s.endRecording_unplaced, heq, hpass, ih, hmore]
  | case4 depth s t rest h hstop hcomma next ih =>
    have hstop : ¬ (s.unplaced.atMarker ∨ t.unplaced.kind = .rparen ∧ depth = 0) := by
      rw [s.atMarker_unplaced]
      exact hstop
    have hcomma : ¬ (t.unplaced.kind = .comma ∧ depth = 0) := hcomma
    rw [argumentsFrom_cons depth (TagState.rest_unplaced h), if_neg hstop, if_neg hcomma]
    exact ih

theorem steady_arguments : Steady arguments :=
  steady_take.bind fun _ =>
    (steady_modify (g := TagState.beginRecording) fun _ => rfl).bind fun _ =>
      (steady_argumentsFrom 0).bind fun _ => (steady_takeKind _).bind fun _ => .pure _

theorem steady_reference : Steady reference := by
  refine steady_dottedName.recording.bind fun _ => (steady_at? _).bind fun _ => .ite ?_ ?_
  · exact (steady_arguments.map (h := some) fun _ => rfl).bind fun _ => .pure _
  · exact .pure _

theorem steady_word : Steady word :=
  (follows_takeWhile fun s => by rw [s.kind?_unplaced]).map docText_unplaced

theorem steady_skipDash : Steady skipDash := by
  refine steady_skipBlanks.bind fun _ => follows_get.bind fun s => ?_
  obtain ⟨rest, _⟩ := s
  cases rest with
  | nil => exact .pure _
  | cons t rest => exact .ite steady_take (.pure _)

theorem steady_errorName : Steady errorName := by
  refine steady_skipBlanks.bind fun _ =>
    (follows_takeWhile fun s => by rw [s.kind?_unplaced]).bind fun tokens => ?_
  rw [docText_unplaced]
  exact .pure _

theorem steady_apiVisibility : Steady apiVisibility := by
  refine steady_skipBlanks.bind fun _ => follows_get.bind fun s => ?_
  obtain ⟨rest, _⟩ := s
  cases rest with
  | nil => exact .pure _
  | cons t rest => exact .ite (.pure _) (steady_take.bind fun _ => .pure _)

/-! ### The fields of a tag -/

theorem steady_bracketedParam : Steady bracketedParam := by
  have hclose (name : Option Name) (text : Option String) :
      Steady (do takeKind .rbracket; Pure.pure (name, text)) :=
    (steady_takeKind _).bind fun _ => .pure _
  refine steady_take.bind fun _ => steady_skipBlanks.bind fun _ => steady_dottedName.bind
    fun name => steady_skipBlanks.bind fun _ => (steady_at? _).bind fun _ => .ite ?_ (hclose _ none)
  have hvalue : Follows (List.map Token.unplaced)
      (takeWhile fun s => s.kind? != some .rbracket && !s.atMarker)
      (takeWhile fun s => s.kind? != some .rbracket && !s.atMarker) :=
    follows_takeWhile fun s => by rw [s.kind?_unplaced, s.atMarker_unplaced]
  exact steady_take.bind fun _ => hvalue.recording.bind fun r => hclose name (some r.2)

theorem steady_plainParam : Steady plainParam := by
  have hdefault (name : Option Name) : Steady (do
      if ← at? .equals then
        take
        skipBlanks
        return (name, some (← word))
      else return (name, none)) :=
    (steady_at? _).bind fun _ => .ite
      (steady_take.bind fun _ => steady_skipBlanks.bind fun _ => steady_word.bind fun _ => .pure _)
      (.pure _)
  exact steady_dottedName.bind fun name => (steady_at? _).bind fun _ =>
    (steady_secondIs _).bind fun _ => .ite (steady_take.bind fun _ => hdefault name) (hdefault name)

section

variable {p : TagReader DocExpr}

theorem follows_typeConstraint (hp : Follows DocExpr.unplaced p p) :
    Follows unplacedType (typeConstraint p) (typeConstraint p) :=
  steady_skipBlanks.bind fun _ => (steady_at? _).bind fun _ => (steady_secondIs _).bind fun _ =>
    .ite (hp.map fun _ => rfl) (.pure _)

theorem follows_linkTarget (hp : Follows DocExpr.unplaced p p) :
    Follows LinkTarget.unplaced (linkTarget p) (linkTarget p) := by
  refine follows_get.bind fun s => ?_
  obtain ⟨rest, _⟩ := s
  cases rest with
  | nil => exact .pure _
  | cons t rest =>
    obtain ⟨kind, text, value, span⟩ := t
    cases kind with
    | lbrace => exact hp.map fun _ => rfl
    | url => exact steady_take.bind fun _ => .pure _
    | hash =>
      exact (steady_secondIs _).bind fun _ => .ite
        (steady_take.bind fun _ => steady_reference.map fun _ => rfl) (.pure _)
    | identifier => exact steady_reference.map fun _ => rfl
    | _ => exact .pure _

theorem follows_link (hp : Follows DocExpr.unplaced p p) :
    Follows TagBody.unplaced (link p) (link p) :=
  steady_skipBlanks.bind fun _ => (follows_linkTarget hp).recording.bind fun _ => .pure _

theorem follows_param (hp : Follows DocExpr.unplaced p p) :
    Follows TagBody.unplaced (param p) (param p) := by
  have hbody (type : Option DocExpr) (isOptional : Bool) (r : Option Name × Option String) :
      Follows TagBody.unplaced (do skipDash; Pure.pure (.param r.1 type r.2 isOptional))
        (do skipDash; Pure.pure (.param r.1 (unplacedType type) r.2 isOptional)) :=
    steady_skipDash.bind fun _ => .pure _
  exact (follows_typeConstraint hp).bind fun type => steady_skipBlanks.bind fun _ =>
    (steady_at? _).bind fun _ => (steady_at? _).bind fun _ =>
      .ite (steady_bracketedParam.bind fun r => hbody type _ r)
        (.ite (steady_plainParam.bind fun r => hbody type _ r) (hbody type _ (none, none)))

theorem follows_tagBody (hp : Follows DocExpr.unplaced p p) (marker : String) :
    Follows TagBody.unplaced (tagBody p marker) (tagBody p marker) := by
  refine .ite (follows_param hp) (.ite (follows_link hp) ?_)
  split
  · exact .pure _
  · exact .pure _
  · exact (follows_typeConstraint hp).map fun _ => rfl
  · exact (follows_typeConstraint hp).map fun _ => rfl
  · exact steady_errorName.map fun _ => rfl
  · exact steady_errorName.map fun _ => rfl
  · exact steady_errorName.map fun _ => rfl
  · exact .pure _
  · exact .pure _
  · exact .pure _
  · exact .pure _
  · exact steady_apiVisibility.map fun _ => rfl
  · exact .pure _

end

/-! ### Content -/

theorem follows_contentToken (scope : Scope) (t : DocToken) : Follows ContentNode.unplaced
    (Pure.pure (contentToken scope t)) (Pure.pure (contentToken scope t.unplaced)) := by
  obtain ⟨kind, text, value, span⟩ := t
  cases kind with
  | newline => cases scope <;> exact .pure _
  | _ => exact .pure _

theorem follows_itemToken (t : DocToken) : Follows ExprItem.unplaced
    (Pure.pure (itemToken t)) (Pure.pure (itemToken t.unplaced)) := by
  obtain ⟨kind, text, value, span⟩ := t
  cases kind <;> exact .pure _

/-- The programs that contain themselves, with calls that go `n` deep, give the same without
places. -/
structure FollowsTo (n : Nat) : Prop where
  content : ∀ scope, Follows unplacedContent (content n scope) (content n scope)
  items : ∀ close, Follows unplacedItems (items n close) (items n close)
  expression : Follows DocExpr.unplaced (expression n) (expression n)
  inlineTag : Follows Tag.unplaced (inlineTag n) (inlineTag n)
  tag : ∀ scope, Follows Tag.unplaced (tag n scope) (tag n scope)

namespace FollowsTo

theorem zero : FollowsTo 0 where
  content _ := .pure _
  items _ := .pure _
  expression := follows_get.bind fun _ => .pure _
  inlineTag := .pure _
  tag _ := .pure _

variable {n : Nat}

theorem content_succ (h : FollowsTo n) (scope : Scope) :
    Follows unplacedContent (TagReader.content (n + 1) scope)
      (TagReader.content (n + 1) scope) := by
  have hmore {p q : TagReader ContentNode} (hp : Follows ContentNode.unplaced p q) :
      Follows unplacedContent (do return (← p).cons (← TagReader.content n scope))
        (do return (← q).cons (← TagReader.content n scope)) :=
    hp.bind fun node => (h.content scope).bind fun rest => by
      rw [← ContentNode.cons_unplaced]
      exact .pure _
  refine follows_get.bind fun s => ?_
  rw [s.atMarker_unplaced, s.secondKind?_unplaced]
  obtain ⟨rest, lineStart, afterLayout, depth, stop, recordings⟩ := s
  cases rest with
  | nil => exact .pure _
  | cons t rest =>
    refine .ite (.pure _) (.ite (hmore (h.inlineTag.map fun _ => rfl)) (.ite
      (hmore (h.expression.map fun _ => rfl)) (.ite (hmore (h.expression.map fun _ => rfl)) (.ite
        (steady_take.bind fun _ => hmore (steady_reference.map fun _ => rfl))
        (steady_take.bind fun _ => hmore (follows_contentToken scope t))))))

theorem items_succ (h : FollowsTo n) (close : DocKind) :
    Follows unplacedItems (TagReader.items (n + 1) close) (TagReader.items (n + 1) close) := by
  have hmore {p q : TagReader ExprItem} (hp : Follows ExprItem.unplaced p q) :
      Follows unplacedItems (do return (← p) :: (← TagReader.items n close))
        (do return (← q) :: (← TagReader.items n close)) :=
    hp.bind fun _ => (h.items close).bind fun _ => .pure _
  refine follows_get.bind fun s => ?_
  rw [s.atMarker_unplaced, s.secondKind?_unplaced]
  obtain ⟨rest, lineStart, afterLayout, depth, stop, recordings⟩ := s
  cases rest with
  | nil => exact .pure _
  | cons t rest =>
    refine .ite (.pure _) (.ite (steady_take.bind fun _ => h.items close) (.ite
      (hmore (h.inlineTag.map fun _ => rfl)) (.ite (hmore (h.expression.map fun _ => rfl)) (.ite
        (steady_take.bind fun _ => hmore (steady_reference.map fun _ => rfl)) (.ite
          (hmore (steady_reference.map fun _ => rfl))
          (steady_take.bind fun _ => hmore (follows_itemToken t)))))))

theorem expression_succ (h : FollowsTo n) :
    Follows DocExpr.unplaced (TagReader.expression (n + 1)) (TagReader.expression (n + 1)) := by
  refine (steady_at? _).bind fun bracket => ?_
  have hitems (close : DocKind) : Follows (fun r => (unplacedItems r.1, r.2))
      (do take; let r ← recording (nested (TagReader.items n close)); takeKind close; return r)
      (do take; let r ← recording (nested (TagReader.items n close)); takeKind close; return r) :=
    steady_take.bind fun _ => (h.items close).nested.recording.bind fun _ =>
      (steady_takeKind _).bind fun _ => .pure _
  exact (hitems _).spanned.bind fun _ => .pure _

theorem inlineTag_succ (h : FollowsTo n) :
    Follows Tag.unplaced (TagReader.inlineTag (n + 1)) (TagReader.inlineTag (n + 1)) :=
  steady_take.bind fun _ => (h.tag .inline).nested.bind fun _ =>
    (steady_takeKind _).bind fun _ => .pure _

theorem tag_succ (h : FollowsTo n) (scope : Scope) :
    Follows Tag.unplaced (TagReader.tag (n + 1) scope) (TagReader.tag (n + 1) scope) := by
  refine follows_get.bind fun s => ?_
  have hmarker : s.unplaced.rest.head?.elim "" (·.value) = s.rest.head?.elim "" (·.value) := by
    obtain ⟨rest, _⟩ := s
    cases rest <;> rfl
  rw [hmarker]
  generalize s.rest.head?.elim "" (·.value) = marker
  have hread : Follows (fun r => (r.1.unplaced, unplacedContent r.2))
      (do
        take
        let body ← tagBody (TagReader.expression n) marker
        let content ← TagReader.content n scope
        return (body, content))
      (do
        take
        let body ← tagBody (TagReader.expression n) marker
        let content ← TagReader.content n scope
        return (body, content)) :=
    steady_take.bind fun _ => (follows_tagBody h.expression marker).bind fun _ =>
      (h.content scope).bind fun _ => .pure _
  exact hread.spanned.bind fun _ => .pure _

theorem all (n : Nat) : FollowsTo n := by
  induction n with
  | zero => exact zero
  | succ n ih =>
    exact {
      content := ih.content_succ
      items := ih.items_succ
      expression := ih.expression_succ
      inlineTag := ih.inlineTag_succ
      tag := ih.tag_succ }

end FollowsTo

theorem follows_description (n : Nat) :
    Follows Tag.unplaced (description n) (description n) :=
  ((FollowsTo.all n).content .block).spanned.bind fun _ => .pure _

theorem follows_nextTag : Follows (Option.map Tag.unplaced) nextTag nextTag := by
  refine steady_skipLayout.bind fun _ => follows_get.bind fun s => ?_
  have hlength : s.unplaced.rest.length = s.rest.length := List.length_map _
  rw [hlength, s.kind?_unplaced]
  cases s.kind? with
  | none => exact .pure none
  | some kind =>
    have hdescription (n : Nat) : Follows (Option.map Tag.unplaced)
        (some <$> description n) (some <$> description n) :=
      (follows_description n).map fun _ => rfl
    cases kind with
    | tag => exact ((FollowsTo.all _).tag .block).map fun _ => rfl
    | _ => exact hdescription _

theorem follows_tagsUpTo (n : Nat) :
    Follows (List.map Tag.unplaced) (tagsUpTo n) (tagsUpTo n) := by
  induction n with
  | zero => exact .pure []
  | succ n ih =>
    refine follows_nextTag.bind fun next => ?_
    cases next with
    | none => exact .pure []
    | some tag => exact ih.bind fun more => .pure (tag :: more)

end TagReader

/-! ### The whole comment -/

/-- Tokens that differ in their places only make tags that differ in their places only. -/
theorem readTags_moved {tokens others : List DocToken}
    (h : tokens.map Token.unplaced = others.map Token.unplaced) (p q : Position) :
    (readTags tokens p).map Tag.unplaced = (readTags others q).map Tag.unplaced := by
  have hbare (tokens : List DocToken) (p : Position) : (readTags tokens p).map Tag.unplaced =
      readTags (tokens.map Token.unplaced) .start := by
    have hfilter : (tokens.map Token.unplaced).filter (fun t => !t.isTrivia) =
        (tokens.filter fun t => !t.isTrivia).map Token.unplaced := List.filter_map
    rw [readTags, readTags, hfilter, List.length_map]
    exact (congrArg Prod.fst (TagReader.follows_tagsUpTo _
      { rest := tokens.filter fun t => !t.isTrivia, stop := p })).symm
  rw [hbare tokens p, hbare others q, h]

/-- The tags of a comment differ in their places only, wherever it stands. -/
theorem parseComment_moved (text : String) (p q : Position) :
    (parseComment text p).tags.map Tag.unplaced =
      (parseComment text q).tags.map Tag.unplaced := by
  have hread : (lexDoc text p).1.map Token.content = (lexDoc text q).1.map Token.content :=
    (Lexer.Alike.run (Lexer.start_alike rfl rfl)).1
  exact readTags_moved (map_unplaced_eq hread) p q

end SqlDoc

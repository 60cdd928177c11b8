/-
# Links

A link is the same whether it stands as a tag of its own or inside braces (`parseComment_links`):
the tokens of the reference differ in the texts in quotes only, and what a tag reads of them is told
by the characters that count. Where a text in quotes has a comma that would separate arguments, or
parentheses or blanks that would count, the two differ (`parseComment_links_quotes`).

Key definitions: `Doc.LinkText.reference`, `Doc.LinkText.body`.
Key theorems: `TagReader.tag_link`, `TagReader.tagsUpTo_link`, `TagReader.tagsUpTo_inlineLink`,
`parseComment_links`.
-/
import SqlDoc.Proofs.Doc.LinkTokens

namespace SqlDoc

/-! ### References as they are read -/

namespace Doc

namespace LinkText

/-- The reference that is read, with the texts between the commas outside further parentheses as its
arguments. The commas of an address do not count. -/
def reference (r : LinkText) : Reference where
  name := .parse (String.ofList r.name)
  text := String.ofList r.name
  args := r.args.map fun text => TagReader.argumentsOf (splitArguments 0 (argumentMarks text))

/-- The fields of a tag that links to the reference. -/
def body (r : LinkText) : TagBody :=
  .link (TagReader.linked r.hash r.reference) (Text.recorded r.chars)

end LinkText
end Doc

open Doc

namespace TagReader

variable {s : TagState} {n : Nat} {enclosing : List Delimiter} {r : LinkText}
  {hash : Option DocToken} {names args after : List DocToken} {marker blank : DocToken}

/-- The fields of the tag are the reference. Its content follows. -/
theorem tag_link (scope : Scope) (hlink : ReadsLink enclosing r hash names args)
    (hopens : ¬ "/**".toList <:+: r.chars) (hwhole : InOnePiece .string 0 args)
    (hspaced : ∀ t ∈ args, t.kind = .string → Text.spaced t.text.toList = t.text.toList)
    (hrest : s.rest = marker :: blank :: (hash.toList ++ (names ++ args) ++ after))
    (hvalue : marker.value = "link") (hblank : blank.kind = .whitespace)
    (hafter : ∀ t ∈ after.head?, t.kind ∉ [.dot, .lparen]) :
    ∃ s', s'.rest = after ∧
      let result := (tag (n + 1) scope).run s
      result.1.body = r.body ∧ result.1.content = ((content n scope).run s').1 ∧
        result.2 = ((content n scope).run s').2 := by
  let s₁ := s.after 1
  have hs₁ : s₁.rest = blank :: (hash.toList ++ (names ++ args) ++ after) := by
    rw [s.rest_after, hrest]
    rfl
  have hlist := hlink.arguments.argumentList
    (fun text htext => ⟨LinkText.inArguments hopens text htext, r.balanced text htext⟩) hwhole
    hspaced
  have hbody := link_gives (expression n) hblank (fun t ht => (hlink.mark t ht).1) hlink.qualified
    hlist (hlink.recorded hspaced) hs₁ hafter
  have hname : tokensText names = String.ofList r.name := by
    rw [← hlink.name, String.ofList_toList]
  have hplain := Text.recorded_of_not_blank r.not_isBlank_of_mem_name
  rw [hlink.text, hlink.name, hlink.marked, hname, hplain] at hbody
  let s' := s₁.after (blank :: (hash.toList ++ (names ++ args))).length
  refine ⟨s', ?_, tag_of_tagBody hrest (by rw [hvalue]; exact hbody)⟩
  rw [s₁.rest_after, hs₁, List.length_cons, List.drop_succ_cons, List.drop_left]

theorem content_of_inlineTag {brace : DocToken} {rest : List DocToken}
    (hrest : s.rest = brace :: marker :: rest) (hbrace : brace.kind = .lbrace)
    (hmarker : marker.kind = .tag) (n : Nat) :
    (content (n + 1) .block).run s =
      let t := (inlineTag n).run s
      let more := (content n .block).run t.2
      ((ContentNode.inlineTag t.1).cons more.1, more.2) := by
  have hstop : ¬ (s.atMarker = true ∨ Scope.block = .inline ∧ brace.kind = .rbrace) := by
    simp [atMarker_eq_false hrest (hbrace ▸ nofun)]
  have hsecond : s.secondKind? = some .tag := by
    rw [TagState.secondKind?, hrest]
    exact congrArg some hmarker
  rw [content, run_get, hrest]
  dsimp only
  rw [if_neg hstop, if_pos ⟨hbrace, hsecond⟩]
  rfl

theorem inlineTag_gives {close : DocToken} (hclose : close.kind = .rbrace)
    (hleft : ((tag n .inline).run (s.after 1).deeper).2.rest = close :: after) :
    ((inlineTag (n + 1)).run s).1 = ((tag n .inline).run (s.after 1).deeper).1 ∧
      ((inlineTag (n + 1)).run s).2.rest = after := by
  let result := (tag n .inline).run (s.after 1).deeper
  let outer : TagState := { result.2 with depth := result.2.depth - 1 }
  have hrun : (inlineTag (n + 1)).run s = (result.1, ((takeKind .rbrace).run outer).2) := by
    rw [inlineTag]
    rfl
  have houter : outer.rest = close :: after := hleft
  rw [hrun, takeKind_gives houter hclose]
  refine ⟨rfl, ?_⟩
  rw [outer.rest_after, houter]
  rfl

theorem content_of_rbrace {close : DocToken} {rest : List DocToken} (hrest : s.rest = close :: rest)
    (hclose : close.kind = .rbrace) (n : Nat) : (content n .inline).run s = ([], s) := by
  cases n with
  | zero => rfl
  | succ n =>
    rw [content, run_get, hrest]
    dsimp only
    rw [if_pos (.inr ⟨rfl, hclose⟩)]
    rfl

theorem content_of_shows {t : DocToken} {piece : List Char} (hrest : s.rest = [t])
    (ht : Shows t piece) (n : Nat) : (content (n + 2) .block).run s =
      ([.text (String.ofList piece)], s.pass t []) := by
  have hkind := ht.kind_not_mem
  have hopens : t.kind ∉ [.tag, .lbrace, .lbracket] := fun hmem =>
    hkind (List.mem_append_left [DocKind.hash] hmem)
  have hhash : t.kind ≠ .hash := fun hmem => hkind (by simp [hmem])
  have hend : (content (n + 1) .block).run (s.pass t []) = ([], s.pass t []) := by
    rw [content, run_get]
    rfl
  rw [content_of_token hrest hopens fun h => hhash h.1, hend, contentToken_of_shows ht]
  rfl

theorem shows_blank {t : DocToken} (ht : IsToken .whitespace " " t) : Shows t [' '] := by
  have htext : t.text.toList = [' '] := by
    rw [ht.2]
    rfl
  have hshows : Shows t t.text.toList :=
    .plain (by rw [ht.1]; rfl) fun _ => htext ▸ List.forall_mem_singleton.2 (by decide)
  rwa [htext] at hshows

section

variable {blank₁ blank₂ blank₃ : DocToken} (hlink : ReadsLink enclosing r hash names args)
  (hopens : ¬ "/**".toList <:+: r.chars) (hwhole : InOnePiece .string 0 args)
  (hspaced : ∀ t ∈ args, t.kind = .string → Text.spaced t.text.toList = t.text.toList)
  (hblank₁ : blank₁.kind = .whitespace) (hmarker : marker.kind = .tag)
  (hvalue : marker.value = "link") (hblank₂ : blank₂.kind = .whitespace)
  (hblank₃ : IsToken .whitespace " " blank₃)

include hlink hopens hwhole hspaced hblank₁ hmarker hvalue hblank₂ hblank₃

/-- The tokens of a comment with a tag that links to the reference are that tag. -/
theorem tagsUpTo_link (hrest : s.rest =
      blank₁ :: marker :: blank₂ :: (hash.toList ++ (names ++ args) ++ [blank₃])) :
    ∃ t, ((tagsUpTo (n + 1)).run s).1 = [t] ∧ t.body = r.body := by
  have hnext : (s.after 1).rest =
      marker :: blank₂ :: (hash.toList ++ (names ++ args) ++ [blank₃]) := by
    rw [s.rest_after, hrest]
    rfl
  let bound := 2 * ((s.after 1).rest.length + 1)
  obtain ⟨m, hm⟩ : ∃ m, bound = m + 3 := ⟨bound - 3, by
    have : 2 ≤ (s.after 1).rest.length := by
      rw [hnext]
      exact Nat.le_add_left _ _
    omega⟩
  obtain ⟨s', hleft, hbody, -, hend⟩ := tag_link (n := m + 2) .block hlink hopens hwhole
    hspaced hnext hvalue hblank₂ fun t ht => by
      rw [← Option.some.inj ht, hblank₃.1]
      decide
  refine ⟨((tag bound .block).run (s.after 1)).1, tagsUpTo_marker hrest hblank₁ hmarker ?_, ?_⟩
  · show ((tag bound .block).run (s.after 1)).2.rest = []
    rw [hm, hend, content_of_shows hleft (shows_blank hblank₃)]
    rfl
  · rw [hm]
    exact hbody

/-- The tokens of a comment with such a tag inside braces are a description with that tag. -/
theorem tagsUpTo_inlineLink {brace close : DocToken} (hbrace : brace.kind = .lbrace)
    (hclose : close.kind = .rbrace) (hrest : s.rest =
      blank₁ :: brace :: marker :: blank₂ :: (hash.toList ++ (names ++ args) ++ [close, blank₃]))
    (hn : s.rest.length ≤ n) :
    ∃ d t, ((tagsUpTo n).run s).1 = [d] ∧ inlineTags d.content = [t] ∧ t.body = r.body := by
  have hnext : (s.after 1).rest =
      brace :: marker :: blank₂ :: (hash.toList ++ (names ++ args) ++ [close, blank₃]) := by
    rw [s.rest_after, hrest]
    rfl
  have hskip := skipLayout_one hrest (by rw [hblank₁]; rfl) (by rw [hbrace]; rfl)
  obtain ⟨more, htags, hmore⟩ := tagsUpTo_of_skipLayout hskip hnext (hbrace ▸ nofun) hn
  let bound := 2 * ((s.after 1).rest.length + 1)
  obtain ⟨m, hm⟩ : ∃ m, bound = m + 4 := ⟨bound - 4, by
    have : 2 ≤ (s.after 1).rest.length := by
      rw [hnext]
      exact Nat.le_add_left _ _
    omega⟩
  let inside := ((s.after 1).after 1).deeper
  have hinside : inside.rest =
      marker :: blank₂ :: (hash.toList ++ (names ++ args) ++ [close, blank₃]) := by
    show ((s.after 1).after 1).rest = _
    rw [TagState.rest_after, hnext]
    rfl
  obtain ⟨s', hleft, hbody, -, hend⟩ := tag_link (n := m + 1) .inline hlink hopens
    hwhole hspaced hinside hvalue hblank₂ fun t ht => by
      rw [← Option.some.inj ht, hclose]
      decide
  rw [content_of_rbrace hleft hclose] at hend
  obtain ⟨htag, hafter⟩ := inlineTag_gives (n := m + 2) hclose
    (show ((tag (m + 2) .inline).run inside).2.rest = close :: [blank₃] by rw [hend]; exact hleft)
  have hlast : (content (m + 3) .block).run ((inlineTag (m + 3)).run (s.after 1)).2 = _ :=
    content_of_shows hafter (shows_blank hblank₃) (m + 1)
  have hcontent := content_of_inlineTag hnext hbrace hmarker (m + 3)
  dsimp only at hcontent
  rw [hlast, htag, ← hm] at hcontent
  refine ⟨((description bound).run (s.after 1)).1, ((tag (m + 2) .inline).run inside).1, ?_, ?_,
    hbody⟩
  · have hend : ((content bound .block).run (s.after 1)).2.rest = [] := by
      rw [hcontent]
      rfl
    rw [htags, hmore hend]
  · show inlineTags ((content bound .block).run (s.after 1)).1 = _
    rw [hcontent]
    rfl

end

end TagReader

/-! ### Comments -/

variable {r : LinkText} {start : Position}

/-- A comment with a tag that links to the reference is that tag. -/
theorem parseComment_blockComment (hopens : ¬ "/**".toList <:+: r.chars) :
    (∃ t, (parseComment r.blockComment start).tags = [t] ∧ t.body = r.body) ∧
      (InOnePiece .url 0 (lexDoc r.blockComment start).1 → ∀ text ∈ r.args,
        splitArguments 0 (argumentMarks text) = splitArguments 0 (marks true text)) := by
  obtain ⟨opened, blank₁, marker, blank₂, hash, names, args, blank₃, closed, hlex, hopened, hblank₁,
    hmarker, hvalue, hblank₂, hlink, hblank₃, hclosed⟩ := lexDoc_blockComment r hopens start
  have hnone : ∀ t ∈ args, t.kind ≠ .string := fun t ht hkind =>
    (hlink.arguments.argumentToken t ht).string hkind rfl
  let shown := blank₁ :: marker :: blank₂ :: (hash.toList ++ (names ++ args) ++ [blank₃])
  have htokens : (lexDoc r.blockComment start).1.filter (fun t => !t.isTrivia) = shown := by
    have hsplit : (lexDoc r.blockComment start).1 = opened :: (shown ++ [closed]) := by
      rw [hlex]
      simp [shown]
    rw [hsplit, filter_comment hopened ?_ hclosed]
    refine List.forall_mem_cons.2 ⟨isTrivia_of_kind hblank₁, List.forall_mem_cons.2
      ⟨isTrivia_of_kind hmarker, List.forall_mem_cons.2 ⟨isTrivia_of_kind hblank₂, ?_⟩⟩⟩
    exact List.forall_mem_append.2
      ⟨hlink.shown, List.forall_mem_singleton.2 (isTrivia_of_kind hblank₃.1)⟩
  constructor
  · have htags := TagReader.tagsUpTo_link (s := { rest := shown, stop := start })
      (n := shown.length - 1) hlink hopens (inOnePiece_of_forall hnone 0)
      (fun t ht hkind => absurd hkind (hnone t ht)) hblank₁ hmarker hvalue hblank₂ hblank₃ rfl
    show ∃ t, readTags (lexDoc r.blockComment start).1 start = [t] ∧ _
    rw [readTags, htokens]
    exact htags
  · intro hwhole
    rw [hlex] at hwhole
    refine hlink.arguments.splitArguments_eq r.balanced (hlink.inOnePiece
      [opened, blank₁, marker, blank₂] hwhole ?_)
    simp [hopened, hblank₁, hmarker, hblank₂]

/-- A comment with such a tag inside braces is a description with that tag, if every text in quotes
is in one piece and has no layout but single blanks. -/
theorem parseComment_inlineComment (hopens : ¬ "/**".toList <:+: r.chars)
    (hwhole : InOnePiece .string 0 (lexDoc r.inlineComment start).1)
    (hspaced : ∀ t ∈ (lexDoc r.inlineComment start).1, t.kind = .string →
      Text.spaced t.text.toList = t.text.toList) :
    ∃ d t, (parseComment r.inlineComment start).tags = [d] ∧ inlineTags d.content = [t] ∧
      t.body = r.body := by
  obtain ⟨opened, blank₁, brace, marker, blank₂, hash, names, args, close, blank₃, closed, hlex,
    hopened, hblank₁, hbrace, hmarker, hvalue, hblank₂, hlink, hclose, hblank₃, hclosed⟩ :=
    lexDoc_inlineComment r hopens start
  let shown :=
    blank₁ :: brace :: marker :: blank₂ :: (hash.toList ++ (names ++ args) ++ [close, blank₃])
  have htokens : (lexDoc r.inlineComment start).1.filter (fun t => !t.isTrivia) = shown := by
    have hsplit : (lexDoc r.inlineComment start).1 = opened :: (shown ++ [closed]) := by
      rw [hlex]
      simp [shown]
    rw [hsplit, filter_comment hopened ?_ hclosed]
    refine List.forall_mem_cons.2 ⟨isTrivia_of_kind hblank₁, List.forall_mem_cons.2
      ⟨isTrivia_of_kind hbrace, List.forall_mem_cons.2 ⟨isTrivia_of_kind hmarker,
        List.forall_mem_cons.2 ⟨isTrivia_of_kind hblank₂, ?_⟩⟩⟩⟩
    exact List.forall_mem_append.2 ⟨hlink.shown, List.forall_mem_cons.2
      ⟨isTrivia_of_kind hclose, List.forall_mem_singleton.2 (isTrivia_of_kind hblank₃.1)⟩⟩
  rw [hlex] at hwhole hspaced
  have hwhole : InOnePiece .string 0 args :=
    hlink.inOnePiece [opened, blank₁, brace, marker, blank₂] hwhole
      (by simp [hopened, hblank₁, hbrace, hmarker, hblank₂])
  have hspaced : ∀ t ∈ args, t.kind = .string → Text.spaced t.text.toList = t.text.toList :=
    fun t ht => hspaced t (by simp [ht])
  have htags := TagReader.tagsUpTo_inlineLink (s := { rest := shown, stop := start }) hlink hopens
    hwhole hspaced hblank₁ hmarker hvalue hblank₂ hblank₃ hbrace hclose rfl (le_refl _)
  show ∃ d t, readTags (lexDoc r.inlineComment start).1 start = [d] ∧ _
  rw [readTags, htokens]
  exact htags

/-- A link to a reference is the same as a tag and as a tag inside braces: it has the same target,
with the same name, the same text and the same arguments, and the same text. It is so if no comment
begins in the reference, and if every text in quotes inside the braces leaves the parentheses as they
are, has no comma that would separate arguments and no layout but single blanks. The arguments are
the texts between the commas outside further parentheses, but for those of addresses. -/
theorem parseComment_links (r : LinkText) (start : Position) (hopens : ¬ "/**".toList <:+: r.chars)
    (hwhole : InOnePiece .string 0 (lexDoc r.inlineComment start).1)
    (hspaced : ∀ t ∈ (lexDoc r.inlineComment start).1, t.kind = .string →
      Text.spaced t.text.toList = t.text.toList) :
    (∃ t, (parseComment r.blockComment start).tags = [t] ∧ t.body = r.body) ∧
      (∃ d t, (parseComment r.inlineComment start).tags = [d] ∧ inlineTags d.content = [t] ∧
        t.body = r.body) ∧
      (InOnePiece .url 0 (lexDoc r.blockComment start).1 → ∀ text ∈ r.args,
        splitArguments 0 (argumentMarks text) = splitArguments 0 (marks true text)) :=
  ⟨(parseComment_blockComment hopens).1, parseComment_inlineComment hopens hwhole hspaced,
    (parseComment_blockComment hopens).2⟩

/-- A text in quotes with a comma in it may stand inside further parentheses. -/
theorem parseComment_links_call :
    ∃ r : LinkText, r.blockComment = "/** @link #pkg.get(f(\"a,b\"), 'x y', 1) */" ∧
      ¬ "/**".toList <:+: r.chars ∧ InOnePiece .string 0 (lexDoc r.inlineComment).1 ∧
      (∀ t ∈ (lexDoc r.inlineComment).1, t.kind = .string →
        Text.spaced t.text.toList = t.text.toList) ∧
      InOnePiece .url 0 (lexDoc r.blockComment).1 ∧
      r.args.map (splitArguments 0 ∘ marks true) =
        some ["f(\"a,b\")".toList, " 'x y'".toList, " 1".toList] ∧
      (∃ t, (parseComment r.blockComment).tags = [t] ∧ t.body = r.body) ∧
      (∃ d t, (parseComment r.inlineComment).tags = [d] ∧ inlineTags d.content = [t] ∧
        t.body = r.body) ∧
      ∀ text ∈ r.args,
        splitArguments 0 (argumentMarks text) = splitArguments 0 (marks true text) := by
  let r : LinkText :=
    { hash := true
      first := "pkg".toList
      more := ["get".toList]
      args := some "f(\"a,b\"), 'x y', 1".toList
      names := by decide +kernel
      inside := by decide +kernel }
  have hopens : ¬ "/**".toList <:+: r.chars := by decide +kernel
  have hwhole : InOnePiece .string 0 (lexDoc r.inlineComment).1 := by decide +kernel
  have hspaced : ∀ t ∈ (lexDoc r.inlineComment).1, t.kind = .string →
      Text.spaced t.text.toList = t.text.toList := by
    decide +kernel
  have hurl : InOnePiece .url 0 (lexDoc r.blockComment).1 := by decide +kernel
  obtain ⟨hblock, hinline, hcommas⟩ := parseComment_links r .start hopens hwhole hspaced
  exact ⟨r, by decide +kernel, hopens, hwhole, hspaced, hurl, by decide +kernel, hblock, hinline,
    hcommas hurl⟩

/-- A name and arguments. -/
def Doc.LinkText.call (name text : List Char) (hname : identifier.Describes name)
    (htext : IsArguments text) : LinkText where
  hash := false
  first := name
  more := []
  args := some text
  names := List.forall_mem_singleton.2 hname
  inside _ hmem := Option.some.inj hmem ▸ htext

/-- The arguments of the reference that a tag links to. -/
def linkArgs (t : Tag) : Option (List String) :=
  match t.body with
  | .link (.identifier ref) _ | .link (.hash ref) _ => ref.args
  | _ => none

/-- A comma in quotes separates arguments, but not inside braces. The two differ as well where
parentheses stand in quotes, where several blanks do and where a comment begins. -/
theorem parseComment_links_quotes :
    let differ (text : String) := ∃ r : LinkText, r.chars = text.toList ∧
      ¬ ∃ body, (∃ t, (parseComment r.blockComment).tags = [t] ∧ t.body = body) ∧
        ∃ d t, (parseComment r.inlineComment).tags = [d] ∧ inlineTags d.content = [t] ∧
          t.body = body
    (parseComment "/** @link f(\"a,b\") */").tags.map linkArgs = [some ["\"a", "b\""]] ∧
      ((parseComment "/** \x7b@link f(\"a,b\")\x7d */").tags.flatMap fun d =>
        inlineTags d.content).map linkArgs = [some ["\"a,b\""]] ∧
      differ "f(\"a,b\")" ∧ differ "f(\"(\", \")\")" ∧ differ "f(\"a  b\")" ∧
      differ "f(/** a)" := by
  intro differ
  have hdiffer (r : LinkText)
      (h : (parseComment r.blockComment).tags.map linkArgs ≠
        ((parseComment r.inlineComment).tags.flatMap fun d => inlineTags d.content).map linkArgs) :
      ¬ ∃ body, (∃ t, (parseComment r.blockComment).tags = [t] ∧ t.body = body) ∧
        ∃ d t, (parseComment r.inlineComment).tags = [d] ∧ inlineTags d.content = [t] ∧
          t.body = body := by
    rintro ⟨body, ⟨t, htags, hbody⟩, d, u, hdescription, hinline, hsame⟩
    refine h ?_
    have hargs : linkArgs t = linkArgs u := by
      rw [linkArgs, linkArgs, hbody, hsame]
    rw [htags, hdescription, List.flatMap_singleton, hinline, List.map_singleton,
      List.map_singleton, hargs]
  exact ⟨by decide +kernel, by decide +kernel,
    ⟨.call ['f'] "\"a,b\"".toList (by decide +kernel) (by decide +kernel), by decide +kernel,
      hdiffer _ (by decide +kernel)⟩,
    ⟨.call ['f'] "\"(\", \")\"".toList (by decide +kernel) (by decide +kernel), by decide +kernel,
      hdiffer _ (by decide +kernel)⟩,
    ⟨.call ['f'] "\"a  b\"".toList (by decide +kernel) (by decide +kernel), by decide +kernel,
      hdiffer _ (by decide +kernel)⟩,
    ⟨.call ['f'] "/** a".toList (by decide +kernel) (by decide +kernel), by decide +kernel,
      hdiffer _ (by decide +kernel)⟩⟩

end SqlDoc

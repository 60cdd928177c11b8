/-
# The tokens of a link

A reference is written with names and dots between them, perhaps with `#` in front and arguments
behind (`Doc.LinkText`). The comment with a tag that links to it and the comment with such a tag
inside braces are read as the same marker, the same names and tokens of the same arguments
(`lexDoc_blockComment`, `lexDoc_inlineComment`).

Key definitions: `Doc.LinkText`, `Doc.LinkText.blockComment`, `Doc.LinkText.inlineComment`,
`Doc.ReadsArguments`, `Doc.ReadsLink`.
Key theorems: `Doc.ReadsArguments.argumentList`, `Doc.Stands.run_linkTag`, `lexDoc_blockComment`,
`lexDoc_inlineComment`.
-/
import SqlDoc.Proofs.Doc.ArgumentMarks

namespace SqlDoc
namespace Doc

open TagReader (QualifiedName ArgumentList argumentsOf)
open Text (isBlank isLineEnd)

variable {enclosing : List Delimiter} {lx : Lexer docGrammar} {rest : List Char}

/-! ### References as they are written -/

/-- Names with a dot between each two. -/
def dotted (first : List Char) (more : List (List Char)) : List Char :=
  first ++ more.flatMap ('.' :: ·)

/-- Arguments in parentheses, or nothing. -/
def argumentChars (args : Option (List Char)) : List Char :=
  args.elim [] fun text => '(' :: (text ++ [')'])

/-- The text may stand in the parentheses of a reference. It is on one line, no character opens
anything or begins a marker or an escape, no comment ends, and every parenthesis that is opened is
closed, and no other. -/
def IsArguments (text : List Char) : Prop :=
  (∀ c ∈ text, isSpecial c = false ∧ isLineEnd c = false) ∧ ¬ "*/".toList <:+: text ∧
    nesting 0 (marks true text) = some 0

instance (text : List Char) : Decidable (IsArguments text) :=
  have : Decidable ("*/".toList <:+: text) := List.instDecidableIsInfixOfDecidableEq _ _
  decidable_of_iff ((text.all fun c => !isSpecial c && !isLineEnd c) = true ∧
      ¬ "*/".toList <:+: text ∧ nesting 0 (marks true text) = some 0) <| by
    simp only [IsArguments, List.all_eq_true, Bool.and_eq_true, Bool.not_eq_true']

/-- A reference on one line: names with dots between them, perhaps with `#` in front and arguments
behind. -/
structure LinkText where
  hash : Bool
  first : List Char
  more : List (List Char)
  /-- What stands in the parentheses behind the names, if there are any. -/
  args : Option (List Char)
  names : ∀ name ∈ first :: more, identifier.Describes name
  inside : ∀ text ∈ args, IsArguments text

namespace LinkText

/-- The names, with the dots. -/
def name (r : LinkText) : List Char :=
  dotted r.first r.more

/-- The reference as it is written. -/
def chars (r : LinkText) : List Char :=
  (if r.hash then ['#'] else []) ++ (r.name ++ argumentChars r.args)

/-- The comment with a tag that links to the reference. -/
def blockComment (r : LinkText) : String :=
  "/** @link " ++ String.ofList r.chars ++ " */"

/-- The comment with such a tag inside braces. -/
def inlineComment (r : LinkText) : String :=
  "/** \x7b@link " ++ String.ofList r.chars ++ "\x7d */"

end LinkText

/-! ### Names -/

theorem readPiece_of_notMem {c : Char} (hc : c ∉ ['"', '\'', '/']) (rest : List Char) :
    readPiece false enclosing (c :: rest) = readPiece false [] (c :: rest) := by
  rw [readPiece, readPiece, contentPiece_of_notMem hc]

/-- The token is a name or a mark of a reference. -/
def IsNamePart (t : DocToken) : Prop :=
  t.kind ∈ [.hash, .dot, .identifier] ∧ ∀ c ∈ t.text.toList, isBlank c = false

theorem IsNamePart.of_isToken {kind : DocKind} {text : List Char} {t : DocToken}
    (h : IsToken kind (String.ofList text) t) (hkind : kind ∈ [.hash, .dot, .identifier])
    (htext : ∀ c ∈ text, isBlank c = false) : IsNamePart t := by
  refine ⟨h.1 ▸ hkind, ?_⟩
  rw [h.2, String.toList_ofList]
  exact htext

theorem IsNamePart.quiet {t : DocToken} (h : IsNamePart t) : t.kind.isLayout = false ∧
    (TokenKind.trivia t.kind == .yes) = false ∧ t.kind ∉ [.lparen, .rparen] := by
  have hkind := h.1
  simp only [List.mem_cons, List.not_mem_nil, or_false] at hkind
  rcases hkind with hkind | hkind | hkind <;>
  · rw [hkind]
    exact ⟨rfl, rfl, by decide⟩

theorem IsNamePart.recorded {t : DocToken} (h : IsNamePart t) : IsRecorded t :=
  .of_not_blank h.quiet.1 h.2

theorem IsNamePart.shown {t : DocToken} (h : IsNamePart t) : t.isTrivia = false :=
  h.quiet.2.1

/-- Names with dots between them are read up to a character that belongs to no name. -/
theorem Stands.run_names (h : Stands false enclosing lx) {first : List Char}
    {more : List (List Char)} (hnames : ∀ name ∈ first :: more, identifier.Describes name)
    {c : Char} (hc : nameChar.mem c = false) (hcolon : c ≠ ':')
    (hrest : lx.rest = dotted first more ++ c :: rest) :
    ∃ tokens next, lx.run.1 = tokens ++ next.run.1 ∧ next.rest = c :: rest ∧
      Stands false enclosing next ∧ QualifiedName tokens ∧
      (tokensText tokens).toList = dotted first more ∧ ∀ t ∈ tokens, IsNamePart t := by
  induction more generalizing first lx with
  | nil =>
    have hname := List.forall_mem_singleton.1 hnames
    obtain ⟨hne, hall⟩ := nameChar_of_describes hname
    obtain ⟨t, next, hrun, ht, -, hleft, hnext⟩ := h.run_piece first
      (hrest.trans (by rw [dotted, List.flatMap_nil, List.append_nil])) hne
      (readPiece_name hname hc hcolon) rfl rfl
    refine ⟨[t], next, hrun, hleft, hnext, .one ht.1, ?_, List.forall_mem_singleton.2 <|
      .of_isToken ht (by simp) fun c hc => not_isBlank_of_nameChar (hall c hc)⟩
    rw [tokensText_cons, ht.2]
    simp [dotted, tokensText]
  | cons second more ih =>
    obtain ⟨hname, hnames⟩ := List.forall_mem_cons.1 hnames
    obtain ⟨hne, hall⟩ := nameChar_of_describes hname
    have hsplit : dotted first (second :: more) = first ++ '.' :: dotted second more := by
      rw [dotted, List.flatMap_cons, dotted, List.cons_append]
    rw [hsplit, List.append_assoc, List.cons_append] at hrest
    obtain ⟨t, lx₁, hrun₁, ht, -, hrest₁, hlx₁⟩ := h.run_piece first hrest hne
      (readPiece_name hname (by decide) (by decide)) rfl rfl
    obtain ⟨dot, lx₂, hrun₂, hdot, -, hrest₂, hlx₂⟩ := hlx₁.run_piece ['.'] hrest₁
      (List.cons_ne_nil _ _) (p := ⟨.dot, 1, "."⟩)
      ((readPiece_of_notMem (by decide) _).trans rfl) rfl rfl
    obtain ⟨tokens, next, hrun, hleft, hnext, hqualified, htext, hparts⟩ := ih hlx₂ hnames hrest₂
    refine ⟨t :: dot :: tokens, next, ?_, hleft, hnext, .more ht.1 hdot.1 hqualified, ?_, ?_⟩
    · rw [hrun₁, hrun₂, hrun]
      rfl
    · rw [tokensText_cons, tokensText_cons, String.toList_append, String.toList_append, htext,
        ht.2, hdot.2, hsplit, String.toList_ofList, String.toList_ofList]
      rfl
    · refine List.forall_mem_cons.2 ⟨.of_isToken ht (by simp) fun c hc =>
        not_isBlank_of_nameChar (hall c hc), List.forall_mem_cons.2 ⟨?_, hparts⟩⟩
      exact .of_isToken hdot (by simp) (List.forall_mem_singleton.2 (by decide))

/-! ### Arguments -/

/-- The tokens are read for arguments in parentheses, or for none. -/
inductive ReadsArguments (enclosing : List Delimiter) :
    Option (List Char) → List DocToken → Prop where
  | none : ReadsArguments enclosing none []
  | call {text : List Char} {opened close : DocToken} {tokens : List DocToken}
      (hopened : IsToken .lparen "(" opened) (hclose : IsToken .rparen ")" close)
      (htext : (tokensText tokens).toList = text)
      (htracks : Tracks .string tokens (argumentMarks text))
      (htokens : ∀ t ∈ tokens, ArgumentToken enclosing t) :
      ReadsArguments enclosing (some text) (opened :: tokens ++ [close])

theorem Stands.run_argumentChars (h : Stands false enclosing lx) {args : Option (List Char)}
    (hinside : ∀ text ∈ args, InArguments text) (hquotes : ∀ c ∈ rest, c ≠ '"' ∧ c ≠ '\'')
    (hrest : lx.rest = argumentChars args ++ rest) :
    ∃ tokens next, lx.run.1 = tokens ++ next.run.1 ∧ next.rest = rest ∧
      Stands false enclosing next ∧ ReadsArguments enclosing args tokens := by
  cases args with
  | none => exact ⟨[], lx, rfl, hrest, h, .none⟩
  | some text =>
    have hrest : lx.rest = ['('] ++ (text ++ ')' :: rest) := by
      rw [hrest]
      simp [argumentChars]
    obtain ⟨opened, lx₁, hrun₁, hopened, -, hrest₁, hlx₁⟩ := h.run_piece _ hrest
      (List.cons_ne_nil _ _) (p := ⟨.lparen, 1, "("⟩)
      ((readPiece_of_notMem (by decide) _).trans rfl) rfl rfl
    obtain ⟨tokens, lx₂, hrun₂, hrest₂, hlx₂, htext, htracks, htokens⟩ :=
      hlx₁.run_arguments hrest₁ (hinside text rfl) hquotes
    obtain ⟨close, next, hrun₃, hclose, -, hleft, hnext⟩ := hlx₂.run_piece [')'] hrest₂
      (List.cons_ne_nil _ _) (p := ⟨.rparen, 1, ")"⟩)
      ((readPiece_of_notMem (by decide) _).trans rfl) rfl rfl
    refine ⟨opened :: tokens ++ [close], next, ?_, hleft, hnext,
      .call hopened hclose htext htracks htokens⟩
    rw [hrun₁, hrun₂, hrun₃]
    simp

/-- A parenthesis is one of the tokens that may be read in arguments. -/
theorem argumentToken_paren {t : DocToken} (h : IsToken .lparen "(" t ∨ IsToken .rparen ")" t)
    (enclosing : List Delimiter) : ArgumentToken enclosing t := by
  have hrecorded {kind : DocKind} {c : Char} (ht : IsToken kind (String.ofList [c]) t)
      (hkind : kind.isLayout = false) (hc : isBlank c = false) : IsRecorded t := by
    refine .of_not_blank (ht.1 ▸ hkind) ?_
    rw [ht.2, String.toList_ofList]
    exact List.forall_mem_singleton.2 hc
  have hshown : t.isTrivia = false := by
    show (TokenKind.trivia t.kind == .yes) = false
    rcases h with h | h <;> rw [h.1] <;> rfl
  rcases h with h | h
  · exact ⟨.lparen h, hshown, fun hkind => (DocKind.noConfusion (h.1.symm.trans hkind)),
      fun _ => hrecorded (c := '(') h rfl (by decide)⟩
  · exact ⟨.rparen h, hshown, fun hkind => (DocKind.noConfusion (h.1.symm.trans hkind)),
      fun _ => hrecorded (c := ')') h rfl (by decide)⟩

theorem ReadsArguments.argumentToken {args : Option (List Char)} {tokens : List DocToken}
    (h : ReadsArguments enclosing args tokens) : ∀ t ∈ tokens, ArgumentToken enclosing t := by
  cases h with
  | none => exact List.forall_mem_nil _
  | call hopened hclose _ _ htokens =>
    exact List.forall_mem_append.2 ⟨List.forall_mem_cons.2
      ⟨argumentToken_paren (.inl hopened) enclosing, htokens⟩,
      List.forall_mem_singleton.2 (argumentToken_paren (.inr hclose) enclosing)⟩

/-- The tokens of arguments are an argument list, if the texts in quotes among them are in one piece
and have no layout but single blanks. -/
theorem ReadsArguments.argumentList {args : Option (List Char)} {tokens : List DocToken}
    (h : ReadsArguments enclosing args tokens)
    (hinside : ∀ text ∈ args, InArguments text ∧ nesting 0 (marks true text) = some 0)
    (hwhole : InOnePiece .string 0 tokens)
    (hspaced : ∀ t ∈ tokens, t.kind = .string → Text.spaced t.text.toList = t.text.toList) :
    ArgumentList tokens
      (args.map fun text => argumentsOf (splitArguments 0 (argumentMarks text))) := by
  cases h with
  | none => exact .none
  | @call text opened close tokens hopened hclose htext htracks htokens =>
    obtain ⟨harguments, hbalanced⟩ := hinside text rfl
    have hnesting : nesting 0 (argumentMarks text) = some 0 := by
      rw [nesting_of_parensCount harguments.parensCount, map_fst_argumentMarks]
      exact hbalanced
    have hwhole : InOnePiece .string 1 (tokens ++ [close]) := by
      have hafter : depthAfter 0 opened.kind = 1 := by rw [hopened.1]; rfl
      exact hafter ▸ hwhole.2
    obtain ⟨hsame, hsplit⟩ := htracks.splitArguments_eq (.inr rfl)
      (fun t ht => (htokens t ht).part) hwhole hnesting
    rw [Option.map_some, ← hsplit]
    exact .call hopened.1 hclose.1 (fun t ht => (htokens t ht).part)
      (fun t ht => (htokens t ht).recorded
        (hspaced t (List.mem_append_left _ (List.mem_cons_of_mem _ ht)))) hsame

/-- In running text the commas of arguments separate them as if all characters counted, if no address
has such a comma. -/
theorem ReadsArguments.splitArguments_eq {args : Option (List Char)} {tokens : List DocToken}
    (h : ReadsArguments [] args tokens)
    (hbalanced : ∀ text ∈ args, nesting 0 (marks true text) = some 0)
    (hwhole : InOnePiece .url 0 tokens) : ∀ text ∈ args,
      splitArguments 0 (argumentMarks text) = splitArguments 0 (marks true text) := by
  cases h with
  | none => nofun
  | @call text opened close tokens hopened hclose htext htracks htokens =>
    intro _ hmem
    obtain rfl := Option.some.inj hmem
    have hnone : ∀ t ∈ tokens, t.kind ≠ .string := fun t ht hkind => (htokens t ht).string hkind rfl
    have hwhole : InOnePiece .url 1 (tokens ++ [close]) := by
      have hafter : depthAfter 0 opened.kind = 1 := by rw [hopened.1]; rfl
      exact hafter ▸ hwhole.2
    have hall : Tracks .url tokens (marks true text) := htext ▸ tracks_url hnone
    obtain ⟨-, hsplit⟩ := hall.splitArguments_eq (.inl rfl) (fun t ht => (htokens t ht).part) hwhole
      (hbalanced text rfl)
    rw [htracks.eq hnone, hsplit]

/-! ### References -/

/-- The tokens are read for the reference: its mark, its names and its arguments. -/
structure ReadsLink (enclosing : List Delimiter) (r : LinkText) (hash : Option DocToken)
    (names args : List DocToken) : Prop where
  mark : ∀ t ∈ hash, IsToken .hash "#" t
  marked : hash.isSome = r.hash
  qualified : QualifiedName names
  name : (tokensText names).toList = r.name
  parts : ∀ t ∈ names, IsNamePart t
  arguments : ReadsArguments enclosing r.args args

variable {r : LinkText}

theorem LinkText.inArguments (hopens : ¬ "/**".toList <:+: r.chars) :
    ∀ text ∈ r.args, InArguments text := by
  intro text htext
  obtain ⟨hchars, hclose, -⟩ := r.inside text htext
  refine ⟨fun c hc => (hchars c hc).1, fun c hc => (hchars c hc).2, hclose, fun hin => hopens ?_⟩
  refine hin.trans (List.IsInfix.trans ⟨['('], [')'], ?_⟩
    ((List.suffix_append _ _).trans (List.suffix_append _ _)).isInfix)
  rw [argumentChars, htext]
  rfl

theorem LinkText.balanced (r : LinkText) : ∀ text ∈ r.args, nesting 0 (marks true text) = some 0 :=
  fun text htext => (r.inside text htext).2.2

theorem Stands.run_link (h : Stands false enclosing lx) (r : LinkText)
    (hopens : ¬ "/**".toList <:+: r.chars) {c : Char} (hc : c = ' ' ∨ c = '\x7d')
    (hquotes : ∀ d ∈ rest, d ≠ '"' ∧ d ≠ '\'') (hrest : lx.rest = r.chars ++ c :: rest) :
    ∃ hash names args next, lx.run.1 = hash.toList ++ (names ++ args) ++ next.run.1 ∧
      ReadsLink enclosing r hash names args ∧ next.rest = c :: rest ∧
      Stands false enclosing next := by
  have hinside := LinkText.inArguments hopens
  have hquotes : ∀ d ∈ c :: rest, d ≠ '"' ∧ d ≠ '\'' := by
    refine List.forall_mem_cons.2 ⟨?_, hquotes⟩
    rcases hc with rfl | rfl
    · decide
    · decide
  -- the mark in front of the names
  obtain ⟨hash, lx₁, hrun₁, hhash, hsome, hrest₁, hlx₁⟩ : ∃ (hash : Option DocToken) (lx₁ : _),
      lx.run.1 = hash.toList ++ lx₁.run.1 ∧ (∀ t ∈ hash, IsToken .hash "#" t) ∧
        hash.isSome = r.hash ∧ lx₁.rest = r.name ++ (argumentChars r.args ++ c :: rest) ∧
        Stands false enclosing lx₁ := by
    rw [LinkText.chars] at hrest
    cases hash : r.hash with
    | false =>
      refine ⟨none, lx, rfl, nofun, rfl, ?_, h⟩
      rw [hrest, hash]
      simp
    | true =>
      have hrest : lx.rest = ['#'] ++ (r.name ++ (argumentChars r.args ++ c :: rest)) := by
        rw [hrest, hash]
        simp
      obtain ⟨t, next, hrun, ht, -, hleft, hnext⟩ := h.run_piece _ hrest (List.cons_ne_nil _ _)
        (p := ⟨.hash, 1, "#"⟩) ((readPiece_of_notMem (by decide) _).trans rfl) rfl rfl
      exact ⟨some t, next, hrun, fun u hu => Option.some.inj hu ▸ ht, rfl, hleft, hnext⟩
  obtain ⟨d, after, hnext, hd, hcolon⟩ : ∃ d after,
      argumentChars r.args ++ c :: rest = d :: after ∧ nameChar.mem d = false ∧ d ≠ ':' := by
    cases r.args with
    | some text => exact ⟨'(', _, rfl, by decide, by decide⟩
    | none =>
      refine ⟨c, rest, rfl, ?_⟩
      rcases hc with rfl | rfl
      · decide
      · decide
  rw [hnext] at hrest₁
  obtain ⟨names, lx₂, hrun₂, hrest₂, hlx₂, hnames, hname, hparts⟩ :=
    hlx₁.run_names r.names hd hcolon hrest₁
  obtain ⟨args, next, hrun₃, hleft, hnext, hargs⟩ :=
    hlx₂.run_argumentChars hinside hquotes (hrest₂.trans hnext.symm)
  refine ⟨hash, names, args, next, ?_, ⟨hhash, hsome, hnames, hname, hparts, hargs⟩, hleft, hnext⟩
  rw [hrun₁, hrun₂, hrun₃]
  simp

theorem LinkText.not_isBlank_of_mem_name (r : LinkText) : ∀ c ∈ r.name, Text.isBlank c = false := by
  have hname {name : List Char} (hname : name ∈ r.first :: r.more) :
      ∀ c ∈ name, Text.isBlank c = false := fun c hc =>
    not_isBlank_of_nameChar ((nameChar_of_describes (r.names name hname)).2 c hc)
  intro c hc
  rcases List.mem_append.1 hc with hc | hc
  · exact hname List.mem_cons_self c hc
  · obtain ⟨name, hmem, hc⟩ := List.mem_flatMap.1 hc
    rcases List.mem_cons.1 hc with rfl | hc
    · decide
    · exact hname (List.mem_cons_of_mem _ hmem) c hc

/-- A reference begins with its mark or a name. -/
theorem LinkText.exists_chars (r : LinkText) :
    ∃ c tail, r.chars = c :: tail ∧ isBlank c = false := by
  obtain ⟨hne, hall⟩ := nameChar_of_describes (r.names r.first List.mem_cons_self)
  obtain ⟨c, tail, hcons⟩ := List.exists_cons_of_ne_nil hne
  rw [LinkText.chars, LinkText.name, dotted, hcons]
  cases r.hash with
  | true => exact ⟨'#', _, rfl, by decide⟩
  | false => exact ⟨c, _, rfl, not_isBlank_of_nameChar (hall c (hcons ▸ List.mem_cons_self))⟩

/-- A tag that links to the reference is read as its marker, a blank and the reference. -/
theorem Stands.run_linkTag {lineStart : Bool} (h : Stands lineStart enclosing lx) (r : LinkText)
    (hopens : ¬ "/**".toList <:+: r.chars) {c : Char} (hc : c = ' ' ∨ c = '\x7d')
    (hquotes : ∀ d ∈ rest, d ≠ '"' ∧ d ≠ '\'')
    (hrest : lx.rest = "@link".toList ++ ' ' :: (r.chars ++ c :: rest)) :
    ∃ marker blank hash names args next,
      lx.run.1 = marker :: blank :: (hash.toList ++ (names ++ args) ++ next.run.1) ∧
      marker.kind = .tag ∧ marker.value = "link" ∧ blank.kind = .whitespace ∧
      ReadsLink enclosing r hash names args ∧ next.rest = c :: rest ∧
      Stands false enclosing next := by
  obtain ⟨marker, lx₁, hrun₁, hmarker, hvalue, hrest₁, hlx₁⟩ := h.run_piece _ hrest
    (List.cons_ne_nil _ _)
    (readPiece_letterMarker "link".toList (by decide) (by decide) lineStart) rfl rfl
  obtain ⟨d, tail, hchars, hd⟩ := r.exists_chars
  have hblank : readPiece false enclosing ([' '] ++ (r.chars ++ c :: rest)) =
      (⟨.whitespace, 1, " "⟩, false) := by
    rw [hchars]
    exact readPiece_blank hd false
  obtain ⟨blank, lx₂, hrun₂, hblank, -, hrest₂, hlx₂⟩ := hlx₁.run_piece [' '] hrest₁
    (List.cons_ne_nil _ _) hblank rfl rfl
  obtain ⟨hash, names, args, next, hrun₃, hlink, hleft, hnext⟩ :=
    hlx₂.run_link r hopens hc hquotes hrest₂
  have hmarked : marker.value = "link" :=
    hvalue.trans
      (by decide : Text.lower (withoutLeading '@' (String.ofList "@link".toList)) = "link")
  refine ⟨marker, blank, hash, names, args, next, ?_, hmarker.1, hmarked, hblank.1, hlink, hleft,
    hnext⟩
  rw [hrun₁, hrun₂, hrun₃]

namespace ReadsLink

variable {hash : Option DocToken} {names args : List DocToken}

/-- What the tokens say is the reference. -/
theorem text (h : ReadsLink enclosing r hash names args) :
    (tokensText (hash.toList ++ (names ++ args))).toList = r.chars := by
  have hmark : (tokensText hash.toList).toList = if r.hash then ['#'] else [] := by
    rw [← h.marked]
    cases hash with
    | none => rfl
    | some t =>
      rw [Option.toList_some, tokensText_cons, (h.mark t rfl).2]
      rfl
  have hargs : (tokensText args).toList = argumentChars r.args := by
    have hlist := h.arguments
    generalize r.args = written at hlist
    cases hlist with
    | none => rfl
    | call hopened hclose htext =>
      rw [List.cons_append, tokensText_cons, tokensText_append, tokensText_cons, hopened.2, hclose.2,
        String.toList_append, String.toList_append, String.toList_append, htext]
      rfl
  rw [tokensText_append, tokensText_append, String.toList_append, String.toList_append, hmark,
    h.name, hargs]
  rfl

theorem markPart (h : ReadsLink enclosing r hash names args) :
    ∀ t ∈ hash.toList, IsNamePart t := by
  intro t ht
  have hmark : IsToken .hash (String.ofList ['#']) t := h.mark t (Option.mem_toList.1 ht)
  exact .of_isToken hmark (by decide) (List.forall_mem_singleton.2 (by decide))

theorem shown (h : ReadsLink enclosing r hash names args) :
    ∀ t ∈ hash.toList ++ (names ++ args), t.isTrivia = false :=
  List.forall_mem_append.2 ⟨fun t ht => (h.markPart t ht).shown,
    List.forall_mem_append.2 ⟨fun t ht => (h.parts t ht).shown,
      fun t ht => (h.arguments.argumentToken t ht).shown⟩⟩

theorem recorded (h : ReadsLink enclosing r hash names args)
    (hspaced : ∀ t ∈ args, t.kind = .string → Text.spaced t.text.toList = t.text.toList) :
    ∀ t ∈ hash.toList ++ (names ++ args), IsRecorded t :=
  List.forall_mem_append.2 ⟨fun t ht => (h.markPart t ht).recorded,
    List.forall_mem_append.2 ⟨fun t ht => (h.parts t ht).recorded,
      fun t ht => (h.arguments.argumentToken t ht).recorded (hspaced t ht)⟩⟩

/-- The tokens of the arguments stand behind some that are no parentheses. -/
theorem inOnePiece (front : List DocToken) {back : List DocToken} {kind : DocKind}
    (hlink : ReadsLink enclosing r hash names args)
    (h : InOnePiece kind 0 (front ++ (hash.toList ++ (names ++ args) ++ back)))
    (hfront : ∀ t ∈ front, t.kind ∉ [.lparen, .rparen]) : InOnePiece kind 0 args := by
  have hfront : ∀ t ∈ front ++ (hash.toList ++ names), t.kind ∉ [.lparen, .rparen] :=
    List.forall_mem_append.2 ⟨hfront, List.forall_mem_append.2
      ⟨fun t ht => (hlink.markPart t ht).quiet.2.2, fun t ht => (hlink.parts t ht).quiet.2.2⟩⟩
  have hargs : InOnePiece kind 0 (front ++ (hash.toList ++ names) ++ (args ++ back)) := by
    simpa only [List.append_assoc] using h
  exact (hargs.right hfront).left

end ReadsLink

end Doc

open Doc

variable {r : LinkText}

/-- The comment with a tag is read as its marker and the reference, with a blank in front of each
and behind them. -/
theorem lexDoc_blockComment (r : LinkText) (hopens : ¬ "/**".toList <:+: r.chars)
    (start : Position) :
    ∃ opened blank₁ marker blank₂ hash names args blank₃ closed,
      (lexDoc r.blockComment start).1 = opened :: blank₁ :: marker :: blank₂ ::
        (hash.toList ++ (names ++ args) ++ [blank₃, closed]) ∧
      opened.kind = .commentStart ∧ blank₁.kind = .whitespace ∧ marker.kind = .tag ∧
      marker.value = "link" ∧ blank₂.kind = .whitespace ∧ ReadsLink [] r hash names args ∧
      IsToken .whitespace " " blank₃ ∧ closed.kind = .commentEnd := by
  have hsource : r.blockComment.toList =
      "/**".toList ++ (' ' :: ("@link".toList ++ ' ' :: (r.chars ++ [' ', '*', '/']))) := by
    simp [LinkText.blockComment]
  obtain ⟨opened, blank₁, lx₂, hrun₁, hopened, hblank₁, hrest₂, hlx₂⟩ :=
    run_opening (by decide) hsource start
  obtain ⟨marker, blank₂, hash, names, args, lx₃, hrun₃, hmarker, hvalue, hblank₂, hlink, hrest₃,
    hlx₃⟩ := hlx₂.run_linkTag r hopens (.inl rfl) (by simp) hrest₂
  obtain ⟨blank₃, lx₄, hrun₄, hblank₃, -, hrest₄, hlx₄⟩ := hlx₃.run_piece [' '] hrest₃
    (List.cons_ne_nil _ _) (readPiece_blank (by decide) false) rfl rfl
  obtain ⟨closed, hrun₅, hclosed⟩ := hlx₄.run_close hrest₄
  refine ⟨opened, blank₁, marker, blank₂, hash, names, args, blank₃, closed, ?_, hopened.1,
    hblank₁.1, hmarker, hvalue, hblank₂, hlink, hblank₃, hclosed⟩
  show (Lexer.start docGrammar r.blockComment.toList start).run.1 = _
  rw [hrun₁, hrun₃, hrun₄, hrun₅]

/-- Inside braces the same is read between the braces. -/
theorem lexDoc_inlineComment (r : LinkText) (hopens : ¬ "/**".toList <:+: r.chars)
    (start : Position) :
    ∃ opened blank₁ brace marker blank₂ hash names args close blank₃ closed,
      (lexDoc r.inlineComment start).1 = opened :: blank₁ :: brace :: marker :: blank₂ ::
        (hash.toList ++ (names ++ args) ++ [close, blank₃, closed]) ∧
      opened.kind = .commentStart ∧ blank₁.kind = .whitespace ∧ brace.kind = .lbrace ∧
      marker.kind = .tag ∧ marker.value = "link" ∧ blank₂.kind = .whitespace ∧
      ReadsLink [.brace] r hash names args ∧ close.kind = .rbrace ∧ IsToken .whitespace " " blank₃ ∧
      closed.kind = .commentEnd := by
  have hsource : r.inlineComment.toList = "/**".toList ++ (' ' :: ('\x7b' ::
      ("@link".toList ++ ' ' :: (r.chars ++ '\x7d' :: [' ', '*', '/'])))) := by
    simp [LinkText.inlineComment]
  obtain ⟨opened, blank₁, lx₂, hrun₁, hopened, hblank₁, hrest₂, hlx₂⟩ :=
    run_opening (by decide) hsource start
  obtain ⟨brace, lx₃, hrun₃, hbrace, -, hrest₃, hlx₃⟩ := hlx₂.run_piece ['\x7b'] hrest₂
    (List.cons_ne_nil _ _)
    (show readPiece true [] _ = (⟨.lbrace, 1, "\x7b"⟩, false) from rfl) rfl rfl
  obtain ⟨marker, blank₂, hash, names, args, lx₄, hrun₄, hmarker, hvalue, hblank₂, hlink, hrest₄,
    hlx₄⟩ := Stands.run_linkTag hlx₃ r hopens (.inr rfl) (by simp) hrest₃
  obtain ⟨close, lx₅, hrun₅, hclose, -, hrest₅, hlx₅⟩ := hlx₄.run_piece ['\x7d'] hrest₄
    (List.cons_ne_nil _ _)
    (show readPiece false [.brace] _ = (⟨.rbrace, 1, "\x7d"⟩, false) from rfl) rfl rfl
  obtain ⟨blank₃, lx₆, hrun₆, hblank₃, -, hrest₆, hlx₆⟩ := hlx₅.run_piece [' '] hrest₅
    (List.cons_ne_nil _ _) (readPiece_blank (by decide) false) rfl rfl
  obtain ⟨closed, hrun₇, hclosed⟩ := hlx₆.run_close hrest₆
  refine ⟨opened, blank₁, brace, marker, blank₂, hash, names, args, close, blank₃, closed, ?_,
    hopened.1, hblank₁.1, hbrace.1, hmarker, hvalue, hblank₂, hlink, hclose.1, hblank₃, hclosed⟩
  show (Lexer.start docGrammar r.inlineComment.toList start).run.1 = _
  rw [hrun₁, hrun₃, hrun₄, hrun₅, hrun₆, hrun₇]

end SqlDoc

/-
# Arguments inside braces and in running text

In running text quotes mean nothing. They are read in runs with other such characters, and a run is
read alike wherever it begins (`Doc.argumentMarks_mute`), while everything else that is read ends in
front of a quote. So what stands behind a text in quotes is read as if it stood alone
(`Doc.argumentMarks_quoted`). Inside braces arguments are therefore the tokens that they are in
running text, but for texts in quotes, of whose characters there any may count
(`Doc.Stands.run_arguments`). If these texts are in one piece where they stand, parentheses are
matched and arguments separated alike (`Doc.Tracks.splitArguments_eq`).

Key definitions: `Doc.argumentMarks`, `Doc.InOnePiece`, `Doc.Tracks`, `Doc.ArgumentToken`.
Key theorems: `Doc.argumentMarks_quoted`, `Doc.Tracks.splitArguments_eq`, `Doc.readPiece_arguments`,
`Doc.Stands.run_arguments`.
-/
import SqlDoc.Proofs.Doc.ArgumentTokens

namespace SqlDoc
namespace Doc

open Pattern (opt many literal choice oneOf)
open Text (isBlank)

variable {text rest : List Char}

/-! ### Characters that are read in runs -/

/-- The characters that mean nothing on their own. Quotes are among them. -/
def muteChars : CharSet :=
  .compl (.union (.property .blank)
    (.union wordChar (.ofList "@\x7b\x7d[]()#=,.|:\\*/".toList)))

/-- No other rule reads such a character first. -/
theorem front_mute {c : Char} (hc : muteChars.mem c = true) :
    ((spelling .commentStart "/**" (.push 1) :: wordRules ++ punctuationRules.dropLast).all fun r =>
      !r.matcher.mayBeginWith c) = true := by
  have hothers : isBlank c = false ∧ wordChar.mem c = false := by
    rw [muteChars, CharSet.mem_compl, CharSet.mem_union, CharSet.mem_union, Bool.not_eq_true',
      Bool.or_eq_false_iff, Bool.or_eq_false_iff] at hc
    exact ⟨hc.1, hc.2.1⟩
  have hword (ranges : Text.Ranges) (hwithin : ranges.within Text.wordRanges = true) :
      ranges.contains c = false := by
    refine Bool.eq_false_iff.2 fun h => ?_
    have hmem : wordChar.mem c = true := Text.Ranges.covers_of_within hwithin h
    rw [hothers.2] at hmem
    cases hmem
  have halphabetic : (CharSet.property .alphabetic).mem c = false :=
    hword Text.alphabeticRanges (by decide +kernel)
  have hdecimal : (CharSet.property .decimal).mem c = false :=
    hword Text.decimalRanges (by decide +kernel)
  have hblank : Pattern.innerBlank.mem c = false := by
    rw [innerBlank_mem, hothers.1, Bool.false_and]
  have hne : ∀ d ∈ "/*\r\n@hf\\_\x7b[#()=,.|:".toList, d ≠ c ∧ c ≠ d := by
    have hnot : ("/*\r\n@hf\\_\x7b[#()=,.|:".toList.all fun d => !muteChars.mem d) = true := by
      decide
    intro d hd
    have hdc : d ≠ c := by
      rintro rfl
      have := List.all_eq_true.1 hnot d hd
      rw [hc] at this
      cases this
    exact ⟨hdc, hdc.symm⟩
  simp only [String.reduceToList, List.forall_mem_cons] at hne
  have hwords : (wordRules.all fun r => !r.matcher.mayBeginWith c) = true := by
    simp [wordRules, rule, Matcher.mayBeginWith, Pattern.mayBeginWith,
      Pattern.mayBeEmpty, commentEnd, tag, url, escape, identifier, digits, number, Pattern.blanks,
      Pattern.lineEnd, Pattern.concat, literal, choice, oneOf, Pattern.star, opt, many, hne, hblank,
      halphabetic, hdecimal]
  have hmarks : (punctuationRules.dropLast.all fun r => !r.matcher.mayBeginWith c) = true := by
    simp [punctuationRules, spelling, Matcher.mayBeginWith, hne]
  rw [List.cons_append, List.all_cons, List.all_append, hwords, hmarks]
  simp [spelling, Matcher.mayBeginWith, hne]

/-- Such characters are read in runs. -/
theorem argumentPiece_mute {run after : List Char} (hne : run ≠ [])
    (hrun : ∀ c ∈ run, muteChars.mem c = true)
    (hafter : ∀ c ∈ after.head?, muteChars.mem c = false) :
    argumentPiece (run ++ after) = ⟨.text, run.length, String.ofList run⟩ := by
  let source := run ++ (after ++ ")*/".toList)
  obtain ⟨c, more, hcons⟩ := List.exists_cons_of_ne_nil hne
  have hc : muteChars.mem c = true := hrun c (hcons ▸ List.mem_cons_self)
  have hsource : source = c :: (more ++ (after ++ ")*/".toList)) := by
    rw [← List.cons_append, ← hcons]
  obtain ⟨stop, hstop⟩ := Pattern.matchAt?_many_isSome
    (show (Cursor.start source).rest = _ from hsource) hc
  have hleft : stop.rest = after ++ ")*/".toList := by
    rw [Pattern.rest_of_matchAt?_many hstop]
    show (run ++ (after ++ ")*/".toList)).dropWhile muteChars.mem = _
    rw [List.dropWhile_append_of_pos hrun]
    cases after with
    | nil => exact List.dropWhile_cons_of_neg (by decide)
    | cons d after =>
      exact List.dropWhile_cons_of_neg (Bool.not_eq_true _ ▸ hafter d rfl)
  have hread : pieceOf? source (rule .text plainText) =
      some ⟨.text, run.length, String.ofList run⟩ :=
    pieceOf?_of_pattern run rfl rfl hstop hleft
  let front := spelling .commentStart "/**" (.push 1) :: wordRules ++ punctuationRules.dropLast
  have hfront : front.findSome? (pieceOf? source) = none := by
    rw [hsource]
    exact findSome?_pieceOf?_eq_none (front_mute hc)
  have hpiece : pieceIn? (contentState []) source =
      some ⟨.text, run.length, String.ofList run⟩ := by
    show (front ++ rule .text plainText :: closingRules).findSome? _ = _
    rw [List.findSome?_append, hfront, List.findSome?_cons, hread]
    rfl
  rw [argumentPiece, List.append_assoc]
  show contentPiece [] source = _
  rw [contentPiece, hpiece]
  rfl

/-! ### The characters that count in running text -/

/-- The characters of running text in arguments. Those of an address do not count. -/
def argumentMarks : List Char → List Mark
  | [] => []
  | c :: rest =>
    let p := argumentPiece (c :: rest)
    marks (p.kind ≠ .url) (c :: rest.take (p.length - 1)) ++
      argumentMarks (rest.drop (p.length - 1))
termination_by text => text.length
decreasing_by
  rw [List.length_drop, List.length_cons]
  omega

theorem argumentMarks_nil : argumentMarks [] = [] := by
  rw [argumentMarks]

theorem argumentMarks_piece (hne : text ≠ []) (hpos : 0 < (argumentPiece text).length) :
    argumentMarks text =
      marks ((argumentPiece text).kind ≠ .url) (text.take (argumentPiece text).length) ++
        argumentMarks (text.drop (argumentPiece text).length) := by
  obtain ⟨c, rest, rfl⟩ := List.exists_cons_of_ne_nil hne
  obtain ⟨n, hn⟩ := Nat.exists_eq_add_of_lt hpos
  rw [Nat.zero_add] at hn
  rw [argumentMarks, hn, List.take_succ_cons, List.drop_succ_cons, Nat.add_sub_cancel]

theorem map_fst_argumentMarks (text : List Char) : (argumentMarks text).map (·.1) = text := by
  fun_induction argumentMarks text with
  | case1 => rfl
  | case2 c rest p ih =>
    rw [List.map_append, map_fst_marks, ih, List.cons_append, List.take_append_drop]

theorem argumentMarks_run {run after : List Char} (hrun : ∀ c ∈ run, muteChars.mem c = true)
    (hafter : ∀ c ∈ after.head?, muteChars.mem c = false) :
    argumentMarks (run ++ after) = marks true run ++ argumentMarks after := by
  by_cases hne : run = []
  · subst hne
    rfl
  · have hpiece := argumentPiece_mute hne hrun hafter
    rw [argumentMarks_piece (List.append_ne_nil_of_left_ne_nil hne after)
      (by rw [hpiece]; exact List.length_pos_iff.2 hne), hpiece, List.take_left, List.drop_left]
    rfl

/-- Each of the characters that are read in runs counts, wherever the run begins. -/
theorem argumentMarks_mute {c : Char} (hc : muteChars.mem c = true) (rest : List Char) :
    argumentMarks (c :: rest) = (c, true) :: argumentMarks rest := by
  let run := rest.takeWhile muteChars.mem
  let after := rest.dropWhile muteChars.mem
  have hrun : ∀ d ∈ run, muteChars.mem d = true := fun d hd => List.mem_takeWhile_imp hd
  have hafter : ∀ d ∈ after.head?, muteChars.mem d = false := by
    intro d hd
    have hnot := List.head?_dropWhile_not muteChars.mem rest
    rw [show (rest.dropWhile muteChars.mem).head? = some d from hd] at hnot
    exact hnot
  have hrest : run ++ after = rest := List.takeWhile_append_dropWhile
  have hone : argumentMarks (c :: run ++ after) = marks true (c :: run) ++ argumentMarks after :=
    argumentMarks_run (List.forall_mem_cons.2 ⟨hc, hrun⟩) hafter
  rw [← hrest, ← List.cons_append, hone, argumentMarks_run hrun hafter]
  rfl

theorem parensCount_append {first second : List Mark} (hfirst : ParensCount first)
    (hsecond : ParensCount second) : ParensCount (first ++ second) :=
  List.forall_mem_append.2 ⟨hfirst, hsecond⟩

/-- Addresses have no parentheses in them. -/
theorem Signs.parensCount {kind : DocKind} {piece : List Char} (h : Signs kind piece) :
    ParensCount (marks (kind ≠ .url) piece) := by
  by_cases hurl : kind = .url
  · subst hurl
    cases h with
    | other _ hopen hclose =>
      intro m hm hparen
      obtain ⟨c, hc, rfl⟩ := List.mem_map.1 hm
      rcases hparen with rfl | rfl
      · exact absurd hc hopen
      · exact absurd hc hclose
  · rw [decide_eq_true hurl]
    exact parensCount_marks_true piece

/-- So the parentheses of arguments are matched as if all characters counted. -/
theorem InArguments.parensCount (h : InArguments text) : ParensCount (argumentMarks text) := by
  induction hn : text.length using Nat.strongRecOn generalizing text with
  | ind n ih =>
    by_cases hne : text = []
    · subst hne
      rw [argumentMarks_nil]
      exact List.forall_mem_nil _
    · have hpiece := argumentPiece_spec h hne
      rw [argumentMarks_piece hne hpiece.pos]
      refine parensCount_append hpiece.signs.parensCount (ih _ ?_ ?_ rfl)
      · have := hpiece.pos
        have := List.length_pos_iff.2 hne
        rw [List.length_drop]
        omega
      · rw [← List.take_append_drop (argumentPiece text).length text] at h
        exact h.right

/-! ### Texts in quotes as running text -/

/-- The rule reads no quotes, or runs of characters that mean nothing on their own. -/
def checksNoQuote (r : Rule DocKind Matcher (Fin 4)) : Bool :=
  r.matcher.isPattern plainText || r.matcher.avoids '"' && r.matcher.avoids '\''

theorem checksNoQuote_main : (mainState.rules.all checksNoQuote) = true := by
  decide

/-- A piece that begins with a character of another kind has no quote in it. -/
theorem not_quote_of_argumentPiece (rest : List Char) {c quote : Char}
    (hc : muteChars.mem c = false) (hquote : quote = '"' ∨ quote = '\'') :
    quote ∉ (c :: rest ++ ")*/".toList).take (argumentPiece (c :: rest)).length := by
  let source := c :: rest ++ ")*/".toList
  cases hp : pieceIn? (contentState []) source with
  | none =>
    have hone : argumentPiece (c :: rest) = ⟨.text, 1, String.ofList [c]⟩ := by
      show contentPiece [] source = _
      rw [contentPiece, hp]
      rfl
    rw [hone]
    show quote ∉ [c]
    rw [List.mem_singleton]
    rintro rfl
    rcases hquote with rfl | rfl
    · exact absurd hc (by decide)
    · exact absurd hc (by decide)
  | some found =>
    obtain ⟨r, hr, hread⟩ := List.exists_of_findSome?_eq_some hp
    obtain ⟨stop, hstop, hfrom⟩ := Option.map_eq_some_iff.1 hread
    have hfound : argumentPiece (c :: rest) = .ofMatch r stop := by
      show contentPiece [] source = _
      rw [contentPiece, hp, ← hfrom]
      rfl
    rw [hfound]
    show quote ∉ source.take stop.seen
    have hcheck := List.all_eq_true.1 checksNoQuote_main r hr
    rcases (Bool.or_eq_true _ _).mp hcheck with hplain | havoids
    · rw [Matcher.eq_of_isPattern hplain] at hstop
      have hbegin := Matcher.mayBeginWith_of_tokenEnd? hstop
      have hbegin : muteChars.mem c = true := hbegin
      rw [hc] at hbegin
      cases hbegin
    · obtain ⟨hdouble, hsingle⟩ := (Bool.and_eq_true _ _).mp havoids
      rcases hquote with rfl | rfl
      · exact Matcher.not_mem_of_avoids hdouble hstop
      · exact Matcher.not_mem_of_avoids hsingle hstop

/-- In running text a piece ends in front of a quote, or with others like it a run goes on behind
it: what is in front of the quote can be told from what is behind. -/
theorem argumentMarks_quote {quote : Char} (hquote : quote = '"' ∨ quote = '\'')
    {front : List Char} (hfront : quote ∉ front) (h : InArguments (front ++ quote :: rest)) :
    ∃ own, argumentMarks (front ++ quote :: rest) = own ++ argumentMarks (quote :: rest) ∧
      own.map (·.1) = front ∧ ParensCount own := by
  induction hn : front.length using Nat.strongRecOn generalizing front with
  | ind n ih =>
    cases front with
    | nil => exact ⟨[], rfl, rfl, List.forall_mem_nil _⟩
    | cons c front =>
      have hlength : front.length < n := by
        rw [← hn, List.length_cons]
        exact Nat.lt_succ_self _
      cases hc : muteChars.mem c with
      | true =>
        have hmore : InArguments (front ++ quote :: rest) :=
          (show InArguments ([c] ++ (front ++ quote :: rest)) from h).right
        obtain ⟨own, hown, hchars, hparens⟩ := ih _ hlength
          (fun hmem => hfront (List.mem_cons_of_mem c hmem)) hmore rfl
        refine ⟨(c, true) :: own, ?_, congrArg (c :: ·) hchars,
          List.forall_mem_cons.2 ⟨fun _ => rfl, hparens⟩⟩
        rw [List.cons_append, argumentMarks_mute hc, hown]
        rfl
      | false =>
        let text := c :: front ++ quote :: rest
        let p := argumentPiece text
        have hpiece : ArgumentPiece text p := argumentPiece_spec h (List.cons_ne_nil _ _)
        have hle : p.length ≤ (c :: front).length := by
          refine Nat.le_of_not_lt fun hlt => not_quote_of_argumentPiece
            (front ++ quote :: rest) hc hquote ?_
          show quote ∈ (text ++ ")*/".toList).take p.length
          obtain ⟨k, hk⟩ := Nat.exists_eq_add_of_lt hlt
          rw [List.take_append_of_le_length hpiece.le, List.take_append, List.mem_append,
            show p.length - (c :: front).length = k + 1 by omega]
          exact .inr List.mem_cons_self
        have hpos := hpiece.pos
        have hdrop : text.drop p.length = (c :: front).drop p.length ++ quote :: rest :=
          List.drop_append_of_le_length hle
        have htake : text.take p.length = (c :: front).take p.length :=
          List.take_append_of_le_length hle
        obtain ⟨own, hown, hchars, hparens⟩ := ih ((c :: front).drop p.length).length
          (by rw [List.length_drop]; omega)
          (fun hmem => hfront (List.mem_of_mem_drop hmem))
          (by
            rw [← hdrop]
            rw [← List.take_append_drop p.length (c :: front ++ quote :: rest)] at h
            exact h.right) rfl
        refine ⟨marks (p.kind ≠ .url) (text.take p.length) ++ own, ?_, ?_,
          parensCount_append hpiece.signs.parensCount hparens⟩
        · rw [show argumentMarks (c :: front ++ quote :: rest) = _ from
            argumentMarks_piece (List.cons_ne_nil _ _) hpos, List.append_assoc, ← hown, ← hdrop]
        · rw [List.map_append, map_fst_marks, hchars, htake, List.take_append_drop]

/-- Of a text in quotes any characters may count in running text, but its parentheses do. What
stands behind it is read as if it stood alone. -/
theorem argumentMarks_quoted {piece : List Char} (h : quotedText.Describes piece)
    (harguments : InArguments (piece ++ rest)) :
    ∃ own, argumentMarks (piece ++ rest) = own ++ argumentMarks rest ∧ own.map (·.1) = piece ∧
      ParensCount own := by
  have hback : '\\' ∉ piece := fun hmem =>
    absurd (harguments.special _ (List.mem_append_left rest hmem)) (by decide)
  obtain ⟨quote, inner, hquote, rfl, hinner⟩ := eq_of_describes_quotedText h hback
  have hmute : muteChars.mem quote = true := by
    rcases hquote with rfl | rfl
    · decide
    · decide
  have htext : quote :: (inner ++ [quote]) ++ rest = quote :: (inner ++ quote :: rest) := by simp
  rw [htext] at harguments ⊢
  have hmore : InArguments (inner ++ quote :: rest) :=
    (show InArguments ([quote] ++ (inner ++ quote :: rest)) from harguments).right
  obtain ⟨own, hown, hchars, hparens⟩ := argumentMarks_quote hquote hinner hmore
  refine ⟨(quote, true) :: own ++ [(quote, true)], ?_, ?_, ?_⟩
  · rw [argumentMarks_mute hmute, hown, argumentMarks_mute hmute]
    simp
  · simp [hchars]
  · exact parensCount_append (List.forall_mem_cons.2 ⟨fun _ => rfl, hparens⟩)
      (List.forall_mem_singleton.2 fun _ => rfl)

/-! ### Tokens in one piece -/

/-- Each token of the kind is in one piece where it stands in arguments, `depth` parentheses being
open in front of the tokens. The first of them opens the arguments. -/
def InOnePiece (kind : DocKind) : Nat → List DocToken → Prop
  | _, [] => True
  | depth, t :: rest =>
    (t.kind = kind → IsWhole (depth - 1) t.text.toList) ∧
      InOnePiece kind (depthAfter depth t.kind) rest

instance InOnePiece.decidable (kind : DocKind) :
    (depth : Nat) → (tokens : List DocToken) → Decidable (InOnePiece kind depth tokens)
  | _, [] => .isTrue trivial
  | depth, t :: rest =>
    have := decidable kind (depthAfter depth t.kind) rest
    inferInstanceAs (Decidable (_ ∧ _))

variable {kind : DocKind} {depth : Nat} {front tokens back : List DocToken} {m : List Mark}

/-- Where no token is of the kind, all are in one piece. -/
theorem inOnePiece_of_forall (h : ∀ t ∈ tokens, t.kind ≠ kind) (depth : Nat) :
    InOnePiece kind depth tokens := by
  induction tokens generalizing depth with
  | nil => trivial
  | cons t tokens ih =>
    obtain ⟨ht, htokens⟩ := List.forall_mem_cons.1 h
    exact ⟨fun hkind => absurd hkind ht, ih htokens _⟩

theorem InOnePiece.left (h : InOnePiece kind depth (tokens ++ back)) :
    InOnePiece kind depth tokens := by
  induction tokens generalizing depth with
  | nil => trivial
  | cons t tokens ih => exact ⟨h.1, ih h.2⟩

/-- Tokens that are no parentheses make no difference to those behind them. -/
theorem InOnePiece.right (h : InOnePiece kind depth (front ++ tokens))
    (hfront : ∀ t ∈ front, t.kind ∉ [.lparen, .rparen]) : InOnePiece kind depth tokens := by
  induction front with
  | nil => exact h
  | cons t front ih =>
    obtain ⟨ht, hfront⟩ := List.forall_mem_cons.1 hfront
    have hmore : InOnePiece kind (depthAfter depth t.kind) (front ++ tokens) := h.2
    rw [depthAfter_of_notMem ht] at hmore
    exact ih hmore hfront

/-- The marks are those of the tokens, except that of the characters of a token of the kind any may
count, if its parentheses do. -/
inductive Tracks (kind : DocKind) : List DocToken → List Mark → Prop where
  | nil : Tracks kind [] []
  | same {t : DocToken} {tokens : List DocToken} {m : List Mark} (h : Tracks kind tokens m) :
      Tracks kind (t :: tokens) (tokenMarks t ++ m)
  | other {t : DocToken} {tokens : List DocToken} {own m : List Mark} (hkind : t.kind = kind)
      (hchars : own.map (·.1) = t.text.toList) (hparens : ParensCount own)
      (h : Tracks kind tokens m) : Tracks kind (t :: tokens) (own ++ m)

/-- Without tokens of the kind the marks are those of the tokens. -/
theorem Tracks.eq (h : Tracks kind tokens m) (hnone : ∀ t ∈ tokens, t.kind ≠ kind) :
    m = tokens.flatMap tokenMarks := by
  induction h with
  | nil => rfl
  | same _ ih =>
    rw [List.flatMap_cons, ih (List.forall_mem_cons.1 hnone).2]
  | other hkind => exact absurd hkind ((List.forall_mem_cons.1 hnone).1)

/-- If all tokens of the kind are in one piece, it makes no difference whether their characters
count. -/
theorem Tracks.splitArguments_eq (h : Tracks kind tokens m) (hkind : kind = .url ∨ kind = .string)
    (hparts : ∀ t ∈ tokens, IsPart t) {after : List DocToken} {depth last : Nat}
    (hwhole : InOnePiece kind (depth + 1) (tokens ++ after))
    (hnesting : nesting depth m = some last) :
    nesting depth (tokens.flatMap tokenMarks) = some last ∧
      splitArguments depth (tokens.flatMap tokenMarks) = splitArguments depth m := by
  induction h generalizing depth with
  | nil => exact ⟨hnesting, rfl⟩
  | @same t tokens m h ih =>
    obtain ⟨ht, hparts⟩ := List.forall_mem_cons.1 hparts
    obtain ⟨-, hwhole⟩ : _ ∧ InOnePiece kind (depthAfter (depth + 1) t.kind) (tokens ++ after) :=
      hwhole
    rw [List.flatMap_cons]
    by_cases hcomma : t.kind = .comma ∧ depth = 0
    · obtain ⟨hcomma, rfl⟩ := hcomma
      rw [ht.tokenMarks_comma hcomma, List.singleton_append] at hnesting ⊢
      rw [hcomma] at hwhole
      obtain ⟨hmore, hsplit⟩ := ih hparts hwhole hnesting
      refine ⟨hmore, ?_⟩
      rw [splitArguments, if_pos ⟨rfl, rfl, rfl⟩, hsplit, List.singleton_append, splitArguments,
        if_pos ⟨rfl, rfl, rfl⟩]
    · obtain ⟨hafter, hsplit⟩ := ht.step m depth
      obtain ⟨hafter', hsplit'⟩ := ht.step (tokens.flatMap tokenMarks) depth
      have hclosed : ¬ (t.kind = .rparen ∧ depth = 0) := by
        intro hzero
        rw [hafter, if_pos hzero] at hnesting
        cases hnesting
      have hdepth : depthAfter (depth + 1) t.kind = depthAfter depth t.kind + 1 := by
        cases hkind : t.kind with
        | rparen =>
          have : depth ≠ 0 := fun hzero => hclosed ⟨hkind, hzero⟩
          show depth + 1 - 1 = depth - 1 + 1
          omega
        | _ => rfl
      rw [hafter, if_neg hclosed] at hnesting
      obtain ⟨hmore, hsame⟩ := ih hparts (hdepth ▸ hwhole) hnesting
      rw [hafter', if_neg hclosed, hsplit' hcomma, hsplit hcomma, hsame]
      exact ⟨hmore, rfl⟩
  | @other t tokens own m ht hchars hparens h ih =>
    obtain ⟨-, hparts⟩ := List.forall_mem_cons.1 hparts
    obtain ⟨hone, hwhole⟩ : (t.kind = kind → IsWhole depth t.text.toList) ∧
      InOnePiece kind (depthAfter (depth + 1) t.kind) (tokens ++ after) := hwhole
    have hdepth : depthAfter (depth + 1) t.kind = depth + 1 := by
      rw [ht]
      rcases hkind with rfl | rfl <;> rfl
    have hidle : tokenMarks t = marks false t.text.toList := by
      rw [tokenMarks, ht]
      rcases hkind with rfl | rfl <;> rfl
    obtain ⟨hbalance, hsingle⟩ := hone ht
    rw [← hchars] at hbalance hsingle
    obtain ⟨hpast, hfirst⟩ := splitArguments_whole hparens hbalance hsingle m
    obtain ⟨hpast', hfirst'⟩ := splitArguments_idle (idle_marks_false t.text.toList) depth
      (tokens.flatMap tokenMarks)
    rw [hpast] at hnesting
    obtain ⟨hmore, hsame⟩ := ih hparts (hdepth ▸ hwhole) hnesting
    rw [List.flatMap_cons, hidle, hpast', hfirst', hfirst, hsame, hchars, map_fst_marks]
    exact ⟨hmore, rfl⟩

/-- The tokens of running text are in one piece where their addresses are. -/
theorem tracks_url (hnone : ∀ t ∈ tokens, t.kind ≠ .string) :
    Tracks .url tokens (marks true (tokensText tokens).toList) := by
  induction tokens with
  | nil => exact .nil
  | cons t tokens ih =>
    obtain ⟨ht, hnone⟩ := List.forall_mem_cons.1 hnone
    have hmarks : marks true (tokensText (t :: tokens)).toList =
        marks true t.text.toList ++ marks true (tokensText tokens).toList := by
      rw [tokensText_cons, String.toList_append]
      exact List.map_append
    rw [hmarks]
    by_cases hurl : t.kind = .url
    · exact .other hurl (map_fst_marks true _) (parensCount_marks_true _) (ih hnone)
    · have hsame : marks true t.text.toList = tokenMarks t := by
        rw [tokenMarks, decide_eq_true ⟨hurl, ht⟩]
      rw [hsame]
      exact .same (ih hnone)

/-! ### Arguments token by token -/

/-- Layout, words and texts in quotes are shown, and open and close no delimiter and no line. -/
theorem quiet_of_kind {kind : DocKind}
    (h : kind = .string ∨ kind = .whitespace ∨ isWordy kind = true) :
    (TokenKind.trivia kind == .yes) = false ∧ kind ≠ .tag ∧ startsLine kind = false ∧
      ∀ enclosing, openAfter enclosing kind = enclosing := by
  rcases h with rfl | rfl | hwordy
  · exact ⟨rfl, nofun, rfl, fun _ => rfl⟩
  · exact ⟨rfl, nofun, rfl, fun _ => rfl⟩
  · cases kind <;> first | cases hwordy; done | exact ⟨rfl, nofun, rfl, fun _ => rfl⟩

/-- The token may be read in arguments. Texts in quotes are read inside delimiters only. -/
structure ArgumentToken (enclosing : List Delimiter) (t : DocToken) : Prop where
  part : IsPart t
  shown : t.isTrivia = false
  string : t.kind = .string → enclosing ≠ []
  recorded : (t.kind = .string → Text.spaced t.text.toList = t.text.toList) → IsRecorded t

theorem IsRecorded.of_not_blank {t : DocToken} (hlayout : t.kind.isLayout = false)
    (h : ∀ c ∈ t.text.toList, isBlank c = false) : IsRecorded t := by
  intro text
  rw [recordToken, hlayout, if_neg Bool.false_ne_true, Text.foldl_addSpaced_of_not_blank h]

theorem IsRecorded.of_blank {t : DocToken} (hlayout : t.kind.isLayout = true)
    (hne : t.text.toList ≠ []) (h : ∀ c ∈ t.text.toList, isBlank c = true) : IsRecorded t := by
  intro text
  rw [recordToken, hlayout, if_pos rfl, Text.foldl_addSpaced_blanks hne h]

theorem ArgumentPiece.kind_ne_string {p : Piece} (h : ArgumentPiece text p) :
    p.kind ≠ .string := by
  intro hno
  rcases h.kind with hp | hp <;>
  · rw [hno] at hp
    cases hp

/-- A piece of running text in arguments is such a token. -/
theorem ArgumentPiece.token {p : Piece} {t : DocToken} (h : ArgumentPiece text p)
    (hkind : t.kind = p.kind) (htext : t.text.toList = text.take p.length)
    (enclosing : List Delimiter) : ArgumentToken enclosing t := by
  obtain ⟨htrivia, htag, -, -⟩ := quiet_of_kind (.inr h.kind)
  have hpart : IsPart t := by
    have hsigns := h.signs
    rw [← htext, ← hkind] at hsigns
    generalize hk : t.kind = kind at hsigns
    generalize hpiece : t.text.toList = piece at hsigns
    have htoken {c : Char} (hpiece : t.text.toList = [c]) :
        IsToken kind (String.ofList [c]) t :=
      ⟨hk, by rw [← hpiece, String.ofList_toList]⟩
    cases hsigns with
    | comma => exact .comma (htoken hpiece)
    | lparen => exact .lparen (htoken hpiece)
    | rparen => exact .rparen (htoken hpiece)
    | other hnone hopen hclose hcomma =>
      refine .idle ?_ ?_
      · rw [hk, List.mem_cons, not_or]
        exact ⟨hk ▸ hkind ▸ htag, hnone⟩
      · intro m hm hcounts
        obtain ⟨c, hc, rfl⟩ := List.mem_map.1 hm
        rw [hpiece] at hc
        refine ⟨fun h => hopen (h ▸ hc), fun h => hclose (h ▸ hc), fun h => ?_⟩
        rcases hcomma with hurl | hcomma
        · have hcounts := of_decide_eq_true hcounts
          exact hcounts.1 (hk.trans hurl)
        · exact hcomma (h ▸ hc)
  refine ⟨hpart, ?_, fun hk => absurd (hkind.symm.trans hk) h.kind_ne_string, fun _ => ?_⟩
  · show (TokenKind.trivia t.kind == .yes) = false
    rw [hkind, htrivia]
  · by_cases hblank : p.kind = .whitespace
    · have hne : t.text.toList ≠ [] := by
        rw [htext, Ne, List.take_eq_nil_iff, not_or]
        exact ⟨Nat.ne_of_gt h.pos, List.ne_nil_of_length_pos (Nat.lt_of_lt_of_le h.pos h.le)⟩
      refine .of_blank ?_ hne (htext ▸ h.blank hblank)
      rw [hkind, hblank]
      rfl
    · refine .of_not_blank ?_ (htext ▸ h.solid hblank)
      rw [hkind]
      have hwordy := h.kind.resolve_left hblank
      generalize p.kind = kind at hwordy
      cases kind <;> first | rfl | cases hwordy

/-- A text in quotes is such a token. -/
theorem argumentToken_quoted {t : DocToken} {enclosing : List Delimiter} (hkind : t.kind = .string)
    (hopen : enclosing ≠ []) (h : quotedText.Describes t.text.toList)
    (hback : '\\' ∉ t.text.toList) : ArgumentToken enclosing t := by
  refine ⟨.idle (hkind ▸ by decide) ?_, ?_, fun _ => hopen, fun hspaced text => ?_⟩
  · have hmarks : tokenMarks t = marks false t.text.toList := by
      rw [tokenMarks, hkind]
      rfl
    rw [hmarks]
    exact idle_marks_false _
  · show (TokenKind.trivia t.kind == .yes) = false
    rw [hkind]
    rfl
  · obtain ⟨quote, inner, hquote, heq, -⟩ := eq_of_describes_quotedText h hback
    have hsolid : isBlank quote = false := by
      rcases hquote with rfl | rfl
      · decide
      · decide
    have hspaced := hspaced hkind
    have hlayout : t.kind.isLayout = false := by
      rw [hkind]
      rfl
    rw [heq] at hspaced
    rw [recordToken, hlayout, if_neg Bool.false_ne_true, heq,
      Text.foldl_addSpaced_spaced hsolid hspaced]

/-- In front of the parenthesis that closes arguments the same is read as in running text, or a text
in quotes inside delimiters. No quote stands behind the parenthesis. -/
theorem readPiece_arguments (enclosing : List Delimiter) (h : InArguments text) (hne : text ≠ [])
    (hrest : ∀ c ∈ rest, c ≠ '"' ∧ c ≠ '\'') :
    ∃ p : Piece, readPiece false enclosing (text ++ ')' :: rest) = (p, false) ∧
      openAfter enclosing p.kind = enclosing ∧ 0 < p.length ∧ p.length ≤ text.length ∧
      (p = argumentPiece text ∨
        p.kind = .string ∧ enclosing ≠ [] ∧ quotedText.Describes (text.take p.length)) := by
  let source := text ++ ')' :: rest
  let p := contentPiece enclosing source
  have hread : readPiece false enclosing source = (p, startsLine p.kind) := rfl
  have hcut : contentPiece [] source = argumentPiece text := contentPiece_cut hne rest
  have hpiece := argumentPiece_spec h hne
  have hstart : ¬ "/**".toList <+: source := by
    intro hin
    have hpart : ∀ c ∈ (')' :: rest).head?, c = ')' := fun c hc => (Option.some.inj hc).symm
    have htext : "/**".toList <+: text :=
      Matcher.prefix_of_prefix_append hne (by decide) hpart hin
    exact h.start htext.isInfix
  have hcases : p = argumentPiece text ∨
      p.kind = .string ∧ enclosing ≠ [] ∧ quotedText.Describes (source.take p.length) := by
    obtain ⟨c, more, hcons⟩ := List.exists_cons_of_ne_nil
      (List.append_ne_nil_of_left_ne_nil hne (')' :: rest))
    have hstart : ¬ "/**".toList <+: c :: more := hcons ▸ hstart
    have hsplit := contentPiece_enclosed enclosing hstart
    rw [← hcons] at hsplit
    exact hsplit.imp_left (·.trans hcut)
  rw [hread]
  rcases hcases with hp | ⟨hkind, hopen, hquoted⟩
  · obtain ⟨-, -, hline, hafter⟩ := quiet_of_kind (.inr hpiece.kind)
    rw [hp, hline]
    exact ⟨_, rfl, hafter enclosing, hpiece.pos, hpiece.le, .inl rfl⟩
  · have hpos : 0 < p.length := by
      refine Nat.pos_of_ne_zero fun hzero => ?_
      rw [hzero] at hquoted
      exact absurd (hquoted.mayBeEmpty rfl) (by decide)
    have hle : p.length ≤ text.length := by
      obtain ⟨quote, hquote, hlast⟩ := quote_of_describes hquoted
      refine Nat.le_of_not_lt fun hlt => ?_
      obtain ⟨k, hk⟩ := Nat.exists_eq_add_of_lt hlt
      have hbehind : source.take p.length = text ++ ')' :: rest.take k := by
        rw [List.take_append, List.take_of_length_le (Nat.le_of_lt hlt),
          show p.length - text.length = k + 1 by omega, List.take_succ_cons]
      rw [hbehind, List.getLast?_append,
        List.getLast?_eq_some_getLast (List.cons_ne_nil ')' _), Option.some_or] at hlast
      rcases List.mem_cons.1 (List.mem_of_getLast? (List.getLast?_eq_some_getLast
        (List.cons_ne_nil ')' (rest.take k)) ▸ hlast)) with hclose | hmem
      · rw [hclose] at hquote
        exact absurd hquote (by decide)
      · exact hquote.elim (hrest _ (List.mem_of_mem_take hmem)).1
          (hrest _ (List.mem_of_mem_take hmem)).2
    have htake : source.take p.length = text.take p.length := List.take_append_of_le_length hle
    obtain ⟨-, -, hline, hafter⟩ := quiet_of_kind (.inl hkind)
    rw [hline]
    exact ⟨p, rfl, hafter enclosing, hpos, hle, .inr ⟨hkind, hopen, htake ▸ hquoted⟩⟩

/-- Arguments are read up to their parenthesis. What counts is told by reading them as running text,
but for texts in quotes. -/
theorem Stands.run_arguments {enclosing : List Delimiter} {lx : Lexer docGrammar}
    (hstands : Stands false enclosing lx) (hsource : lx.rest = text ++ ')' :: rest)
    (h : InArguments text) (hrest : ∀ c ∈ rest, c ≠ '"' ∧ c ≠ '\'') :
    ∃ tokens next, lx.run.1 = tokens ++ next.run.1 ∧ next.rest = ')' :: rest ∧
      Stands false enclosing next ∧ (tokensText tokens).toList = text ∧
      Tracks .string tokens (argumentMarks text) ∧ ∀ t ∈ tokens, ArgumentToken enclosing t := by
  induction hn : text.length using Nat.strongRecOn generalizing text lx with
  | ind n ih =>
    by_cases hne : text = []
    · subst hne
      refine ⟨[], lx, rfl, hsource, hstands, rfl, ?_, fun _ ht => absurd ht List.not_mem_nil⟩
      rw [argumentMarks_nil]
      exact .nil
    · obtain ⟨p, hread, hopen, hpos, hle, hcases⟩ := readPiece_arguments enclosing h hne hrest
      obtain ⟨next, hrun, hleft, hnext⟩ := hstands.run_cons hsource
        (List.append_ne_nil_of_left_ne_nil hne _)
      rw [hread] at hrun hleft hnext
      rw [hopen] at hnext
      rw [List.drop_append_of_le_length hle] at hleft
      let t := p.token (text ++ ')' :: rest) lx.position
      have htext : t.text.toList = text.take p.length := by
        show (String.ofList ((text ++ ')' :: rest).take p.length)).toList = _
        rw [String.toList_ofList, List.take_append_of_le_length hle]
      have hsplit : text.take p.length ++ text.drop p.length = text :=
        List.take_append_drop p.length text
      obtain ⟨tokens, last, htokens, hlast, hstop, hchars, htracks, hall⟩ :=
        ih (text.drop p.length).length (by rw [List.length_drop]; omega) hnext hleft
          (InArguments.right (hsplit.symm ▸ h)) rfl
      refine ⟨t :: tokens, last, ?_, hlast, hstop, ?_, ?_, List.forall_mem_cons.2 ⟨?_, hall⟩⟩
      · rw [hrun, htokens]
        rfl
      · rw [tokensText_cons, String.toList_append, htext, hchars, hsplit]
      · rcases hcases with hp | ⟨hkind, -, hquoted⟩
        · have hpiece := argumentPiece_spec h hne
          rw [argumentMarks_piece hne hpiece.pos, ← hp]
          rw [← hp] at hpiece
          have hmarks : tokenMarks t = marks (p.kind ≠ .url) (text.take p.length) := by
            rw [tokenMarks, htext]
            show marks (decide (p.kind ≠ .url ∧ p.kind ≠ .string)) _ = _
            simp only [hpiece.kind_ne_string, ne_eq, not_false_eq_true, and_true]
          rw [← hmarks]
          exact .same htracks
        · obtain ⟨own, hown, hfst, hparens⟩ :=
            argumentMarks_quoted hquoted (hsplit.symm ▸ h)
          rw [hsplit] at hown
          rw [hown]
          exact .other hkind (hfst.trans htext.symm) hparens htracks
      · rcases hcases with hp | ⟨hkind, hinside, hquoted⟩
        · have hpiece := argumentPiece_spec h hne
          rw [← hp] at hpiece
          exact hpiece.token rfl htext enclosing
        · exact argumentToken_quoted hkind hinside (htext ▸ hquoted) fun hmem =>
            absurd (h.special _ (List.mem_of_mem_take (htext ▸ hmem))) (by decide)

end Doc
end SqlDoc

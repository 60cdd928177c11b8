/-
# What the tokens of a reference give

The reader of a call goes by the kinds of tokens: it counts parentheses, separates the arguments at
the commas outside further parentheses and records what it reads. All this can be told by the
characters of the tokens, if each of them is marked as one that counts or as one that does not:
those of an address and of a text in quotes do not (`TagReader.argumentsFrom_gives`). So the target of
a link and its reference are told by the characters that the tokens have (`TagReader.link_gives`).

Key definitions: `Text.recorded`, `Doc.nesting`, `Doc.splitArguments`, `Doc.IsPart`,
`Doc.ArgumentList`.
Key theorems: `Doc.splitArguments_whole`, `TagReader.recording_gives`,
`TagReader.argumentsFrom_gives`, `TagReader.reference_gives`, `TagReader.link_gives`.
-/
import SqlDoc.Proofs.Doc.ParamTag

namespace SqlDoc

/-! ### Recorded texts -/

namespace Text

/-- The text with one more character. Blanks in a row become one, and there is none at the start. -/
def addSpaced (text : List Char) (c : Char) : List Char :=
  if isBlank c then
    if text = [] ∨ text.getLast? = some ' ' then text else text ++ [' ']
  else text ++ [c]

/-- The text with one blank for each run of blanks, and none at the start. -/
def spaced (text : List Char) : List Char :=
  text.foldl addSpaced []

/-- The text with one blank for each run of blanks, and none at its ends. -/
def recorded (text : List Char) : String :=
  String.ofList (trimChars (spaced text))

variable {text front : List Char}

/-- What is added does not depend on what stands in front of the last character. -/
theorem addSpaced_append (hne : text ≠ []) (c : Char) :
    addSpaced (front ++ text) c = front ++ addSpaced text c := by
  have hlast : (front ++ text).getLast? = text.getLast? := by
    rw [List.getLast?_append, List.getLast?_eq_some_getLast hne, Option.some_or]
  have hne' : front ++ text ≠ [] := List.append_ne_nil_of_right_ne_nil front hne
  simp only [addSpaced, hlast, hne, hne', false_or]
  split
  · split
    · rfl
    · exact List.append_assoc ..
  · exact List.append_assoc ..

theorem addSpaced_ne_nil (hne : text ≠ []) (c : Char) : addSpaced text c ≠ [] := by
  unfold addSpaced
  split
  · split
    · exact hne
    · exact List.append_ne_nil_of_left_ne_nil hne _
  · exact List.append_ne_nil_of_left_ne_nil hne _

theorem foldl_addSpaced_append (hne : text ≠ []) (more : List Char) :
    more.foldl addSpaced (front ++ text) = front ++ more.foldl addSpaced text := by
  induction more generalizing text with
  | nil => rfl
  | cons c more ih =>
    rw [List.foldl_cons, List.foldl_cons, addSpaced_append hne, ih (addSpaced_ne_nil hne c)]

/-- A text with single blanks, none of them at the start, is added as it is. -/
theorem foldl_addSpaced_spaced {c : Char} {more : List Char} (hc : isBlank c = false)
    (h : spaced (c :: more) = c :: more) :
    (c :: more).foldl addSpaced text = text ++ c :: more := by
  have hadd (front : List Char) : addSpaced front c = front ++ [c] := by
    rw [addSpaced, hc]
    exact if_neg Bool.false_ne_true
  rw [spaced, List.foldl_cons, hadd, List.nil_append] at h
  rw [List.foldl_cons, hadd, foldl_addSpaced_append (List.cons_ne_nil c []), h]

theorem foldl_addSpaced_of_not_blank {more : List Char} (h : ∀ c ∈ more, isBlank c = false) :
    more.foldl addSpaced text = text ++ more := by
  induction more generalizing text with
  | nil => exact (List.append_nil text).symm
  | cons c more ih =>
    obtain ⟨hc, hmore⟩ := List.forall_mem_cons.1 h
    rw [List.foldl_cons, ih hmore, addSpaced, hc, if_neg Bool.false_ne_true, List.append_assoc]
    rfl

/-- A run of blanks adds at most one. -/
theorem foldl_addSpaced_blanks {more : List Char} (hne : more ≠ [])
    (h : ∀ c ∈ more, isBlank c = true) :
    more.foldl addSpaced text =
      if text = [] ∨ text.getLast? = some ' ' then text else text ++ [' '] := by
  have hrest (text : List Char) (hdone : text = [] ∨ text.getLast? = some ' ')
      {more : List Char} (h : ∀ c ∈ more, isBlank c = true) : more.foldl addSpaced text = text := by
    induction more with
    | nil => rfl
    | cons c more ih =>
      obtain ⟨hc, hmore⟩ := List.forall_mem_cons.1 h
      rw [List.foldl_cons, addSpaced, hc, if_pos rfl, if_pos hdone, ih hmore]
  obtain ⟨c, more, rfl⟩ := List.exists_cons_of_ne_nil hne
  obtain ⟨hc, hmore⟩ := List.forall_mem_cons.1 h
  rw [List.foldl_cons, addSpaced, hc, if_pos rfl]
  split
  · exact hrest text ‹_› hmore
  · exact hrest _ (.inr (List.getLast?_concat)) hmore

/-- A text without blanks is recorded as it is. -/
theorem recorded_of_not_blank {text : List Char} (h : ∀ c ∈ text, isBlank c = false) :
    recorded text = String.ofList text := by
  rw [recorded, spaced, foldl_addSpaced_of_not_blank h, List.nil_append,
    trimChars_eq_self h]

end Text

namespace Doc

/-! ### Characters that count -/

/-- A character, and whether it counts when parentheses are matched and arguments separated. -/
abbrev Mark := Char × Bool

/-- The characters of a text, all of which count, or none. -/
def marks (counts : Bool) (text : List Char) : List Mark :=
  text.map (·, counts)

@[simp] theorem map_fst_marks (counts : Bool) (text : List Char) :
    (marks counts text).map (·.1) = text := by
  rw [marks, List.map_map]
  exact List.map_id text

/-- How many parentheses are open after a character, `depth` being open before it. -/
def nestingAfter (depth : Nat) (m : Mark) : Nat :=
  if m.2 ∧ m.1 = '(' then depth + 1 else if m.2 ∧ m.1 = ')' then depth - 1 else depth

/-- How many parentheses are open after characters. Nothing, if one is closed that is not open. -/
def nesting : Nat → List Mark → Option Nat
  | depth, [] => some depth
  | depth, m :: rest =>
    if m.2 ∧ m.1 = ')' ∧ depth = 0 then none else nesting (nestingAfter depth m) rest

/-- The texts between the commas that stand outside parentheses, `depth` of which are open in
front. -/
def splitArguments : Nat → List Mark → List (List Char)
  | _, [] => [[]]
  | depth, m :: rest =>
    if m.2 ∧ m.1 = ',' ∧ depth = 0 then [] :: splitArguments 0 rest
    else (splitArguments (nestingAfter depth m) rest).modifyHead (m.1 :: ·)

variable {depth : Nat} {rest : List Mark}

/-- No character that counts is a comma or a parenthesis. -/
def Idle (rest : List Mark) : Prop :=
  ∀ m ∈ rest, m.2 = true → m.1 ≠ '(' ∧ m.1 ≠ ')' ∧ m.1 ≠ ','

theorem idle_marks_false (text : List Char) : Idle (marks false text) := by
  intro m hm hcounts
  obtain ⟨c, -, rfl⟩ := List.mem_map.1 hm
  cases hcounts

/-- What has no comma and no parenthesis that counts opens and closes nothing and belongs to the
first argument. -/
theorem splitArguments_idle (h : Idle rest) (depth : Nat) (more : List Mark) :
    nesting depth (rest ++ more) = nesting depth more ∧
      splitArguments depth (rest ++ more) =
        (splitArguments depth more).modifyHead (rest.map (·.1) ++ ·) := by
  induction rest with
  | nil => exact ⟨rfl, (congrFun List.modifyHead_id _).symm⟩
  | cons m rest ih =>
    obtain ⟨hm, hrest⟩ := List.forall_mem_cons.1 h
    obtain ⟨hnesting, hsplit⟩ := ih hrest
    have hafter : nestingAfter depth m = depth := by
      rw [nestingAfter, if_neg fun h => (hm h.1).1 h.2, if_neg fun h => (hm h.1).2.1 h.2]
    constructor
    · rw [List.cons_append, nesting, if_neg fun h => (hm h.1).2.1 h.2.1, hafter, hnesting]
    · rw [List.cons_append, splitArguments, if_neg fun h => (hm h.1).2.2 h.2.1, hafter, hsplit,
        List.modifyHead_modifyHead]
      rfl

/-- The text is in one piece if all its characters count: no comma of it separates arguments, and
after it as many parentheses are open as in front of it. -/
def IsWhole (depth : Nat) (text : List Char) : Prop :=
  nesting depth (marks true text) = some depth ∧ splitArguments depth (marks true text) = [text]

instance (depth : Nat) (text : List Char) : Decidable (IsWhole depth text) :=
  inferInstanceAs (Decidable (_ ∧ _))

/-- All parentheses count. -/
def ParensCount (rest : List Mark) : Prop :=
  ∀ m ∈ rest, m.1 = '(' ∨ m.1 = ')' → m.2 = true

theorem parensCount_marks_true (text : List Char) : ParensCount (marks true text) := by
  intro m hm _
  obtain ⟨c, -, rfl⟩ := List.mem_map.1 hm
  rfl

theorem nestingAfter_of_parensCount {m : Mark} (hm : m.1 = '(' ∨ m.1 = ')' → m.2 = true) :
    nestingAfter depth m = nestingAfter depth (m.1, true) := by
  unfold nestingAfter
  by_cases hopen : m.1 = '('
  · rw [if_pos ⟨hm (.inl hopen), hopen⟩, if_pos ⟨rfl, hopen⟩]
  · by_cases hclose : m.1 = ')'
    · rw [if_neg fun h => hopen h.2, if_pos ⟨hm (.inr hclose), hclose⟩, if_neg fun h => hopen h.2,
        if_pos ⟨rfl, hclose⟩]
    · rw [if_neg fun h => hopen h.2, if_neg fun h => hclose h.2, if_neg fun h => hopen h.2,
        if_neg fun h => hclose h.2]

/-- Parentheses are matched alike if all of them count, whatever else does. -/
theorem nesting_of_parensCount (h : ParensCount rest) (depth : Nat) :
    nesting depth rest = nesting depth (marks true (rest.map (·.1))) := by
  induction rest generalizing depth with
  | nil => rfl
  | cons m rest ih =>
    obtain ⟨hm, hrest⟩ := List.forall_mem_cons.1 h
    show nesting depth (m :: rest) = nesting depth ((m.1, true) :: marks true (rest.map (·.1)))
    have hcloses : (m.2 = true ∧ m.1 = ')' ∧ depth = 0) ↔ (true = true ∧ m.1 = ')' ∧ depth = 0) :=
      ⟨fun h => ⟨rfl, h.2⟩, fun h => ⟨hm (.inr h.2.1), h.2⟩⟩
    rw [nesting, nesting, ih hrest, nestingAfter_of_parensCount hm]
    exact ite_congr (propext hcloses) (fun _ => rfl) fun _ => rfl

/-- A text in one piece belongs to the first argument, even if not all of its characters count. -/
theorem splitArguments_whole {depth' : Nat} (hparens : ParensCount rest)
    (hnesting : nesting depth (marks true (rest.map (·.1))) = some depth')
    (hwhole : splitArguments depth (marks true (rest.map (·.1))) = [rest.map (·.1)])
    (more : List Mark) :
    nesting depth (rest ++ more) = nesting depth' more ∧
      splitArguments depth (rest ++ more) =
        (splitArguments depth' more).modifyHead (rest.map (·.1) ++ ·) := by
  induction rest generalizing depth with
  | nil =>
    obtain rfl : depth = depth' := Option.some.inj hnesting
    exact ⟨rfl, (congrFun List.modifyHead_id _).symm⟩
  | cons m rest ih =>
    obtain ⟨hm, hrest⟩ := List.forall_mem_cons.1 hparens
    change nesting depth ((m.1, true) :: marks true (rest.map (·.1))) = _ at hnesting
    change splitArguments depth ((m.1, true) :: marks true (rest.map (·.1))) =
      [m.1 :: rest.map (·.1)] at hwhole
    have hcloses : ¬ (m.1 = ')' ∧ depth = 0) := by
      intro h
      rw [nesting, if_pos ⟨rfl, h⟩] at hnesting
      cases hnesting
    have hcomma : ¬ (m.1 = ',' ∧ depth = 0) := by
      intro h
      rw [splitArguments, if_pos ⟨rfl, h⟩] at hwhole
      cases hwhole
    rw [nesting, if_neg fun h => hcloses h.2, ← nestingAfter_of_parensCount hm] at hnesting
    rw [splitArguments, if_neg fun h => hcomma h.2, ← nestingAfter_of_parensCount hm] at hwhole
    have hwhole : splitArguments (nestingAfter depth m) (marks true (rest.map (·.1))) =
        [rest.map (·.1)] := by
      generalize splitArguments _ _ = texts at hwhole
      cases texts with
      | nil => cases hwhole
      | cons first others =>
        rw [List.modifyHead_cons] at hwhole
        obtain ⟨hfirst, rfl⟩ := List.cons.inj hwhole
        rw [(List.cons.inj hfirst).2]
    obtain ⟨hmore, hsplit⟩ := ih hrest hnesting hwhole
    constructor
    · rw [List.cons_append, nesting, if_neg fun h => hcloses h.2, hmore]
    · rw [List.cons_append, splitArguments, if_neg fun h => hcomma h.2, hsplit,
        List.modifyHead_modifyHead]
      rfl

/-! ### Tokens -/

/-- The characters of a token. Those of an address and of a text in quotes do not count. -/
def tokenMarks (t : DocToken) : List Mark :=
  marks (t.kind ≠ .url ∧ t.kind ≠ .string) t.text.toList

/-- The token may be part of arguments: a comma, a parenthesis, or one with none of them that
counts. -/
inductive IsPart (t : DocToken) : Prop where
  | comma (h : IsToken .comma "," t) : IsPart t
  | lparen (h : IsToken .lparen "(" t) : IsPart t
  | rparen (h : IsToken .rparen ")" t) : IsPart t
  | idle (hkind : t.kind ∉ [.tag, .comma, .lparen, .rparen]) (h : Idle (tokenMarks t)) : IsPart t

theorem IsPart.kind_ne_tag {t : DocToken} (h : IsPart t) : t.kind ≠ .tag := by
  intro htag
  cases h with
  | comma h | lparen h | rparen h => cases htag.symm.trans h.1
  | idle hkind => exact hkind (htag ▸ List.mem_cons_self)

/-- The marks of a token that is one character, which counts. -/
theorem IsToken.tokenMarks {kind : DocKind} {c : Char} {t : DocToken}
    (h : IsToken kind (String.ofList [c]) t) (hurl : kind ≠ .url) (hstring : kind ≠ .string) :
    tokenMarks t = [(c, true)] := by
  rw [Doc.tokenMarks, h.1, h.2, String.toList_ofList, decide_eq_true ⟨hurl, hstring⟩]
  rfl

/-- How many parentheses are open after a token. -/
def depthAfter (depth : Nat) : DocKind → Nat
  | .lparen => depth + 1
  | .rparen => depth - 1
  | _ => depth

theorem depthAfter_of_notMem {kind : DocKind} (h : kind ∉ [.lparen, .rparen]) (depth : Nat) :
    depthAfter depth kind = depth := by
  cases kind <;> first | rfl | simp at h

/-- A part opens or closes a parenthesis or none, and belongs to the first argument if it does not
separate arguments. -/
theorem IsPart.step {t : DocToken} (h : IsPart t) (rest : List Mark) (depth : Nat) :
    nesting depth (tokenMarks t ++ rest) =
        (if t.kind = .rparen ∧ depth = 0 then none else nesting (depthAfter depth t.kind) rest) ∧
      (¬ (t.kind = .comma ∧ depth = 0) → splitArguments depth (tokenMarks t ++ rest) =
        (splitArguments (depthAfter depth t.kind) rest).modifyHead (t.text.toList ++ ·)) := by
  have hsign {kind : DocKind} {c : Char} (h : IsToken kind (String.ofList [c]) t)
      (hurl : kind ≠ .url) (hstring : kind ≠ .string) (hkind : kind = .comma ↔ c = ',')
      (hclose : kind = .rparen ↔ c = ')')
      (hafter : nestingAfter depth (c, true) = depthAfter depth kind) :
      nesting depth (tokenMarks t ++ rest) =
          (if t.kind = .rparen ∧ depth = 0 then none else nesting (depthAfter depth t.kind) rest) ∧
        (¬ (t.kind = .comma ∧ depth = 0) → splitArguments depth (tokenMarks t ++ rest) =
          (splitArguments (depthAfter depth t.kind) rest).modifyHead (t.text.toList ++ ·)) := by
    rw [h.tokenMarks hurl hstring, List.singleton_append, h.1, h.2, String.toList_ofList]
    constructor
    · rw [nesting, hafter]
      simp only [hclose, true_and]
    · intro hcomma
      rw [splitArguments, hafter, if_neg fun h => hcomma ⟨hkind.2 h.2.1, h.2.2⟩]
      rfl
  cases h with
  | comma h => exact hsign h nofun nofun (by simp) (by simp) rfl
  | lparen h => exact hsign h nofun nofun (by simp) (by simp) rfl
  | rparen h => exact hsign h nofun nofun (by simp) (by simp) rfl
  | idle hkind h =>
    simp only [List.mem_cons, List.not_mem_nil, or_false, not_or] at hkind
    obtain ⟨-, -, hopen, hclose⟩ := hkind
    obtain ⟨hmore, hsplit⟩ := splitArguments_idle h depth rest
    rw [depthAfter_of_notMem (by simp [hopen, hclose]), if_neg fun h => hclose h.1, hmore, hsplit,
      tokenMarks, map_fst_marks]
    exact ⟨rfl, fun _ => rfl⟩

/-- A comma is what separates arguments. -/
theorem IsPart.tokenMarks_comma {t : DocToken} (h : IsPart t) (hkind : t.kind = .comma) :
    tokenMarks t = [(',', true)] := by
  have htoken : IsToken .comma "," t := by
    cases h with
    | comma h => exact h
    | lparen h | rparen h => cases hkind.symm.trans h.1
    | idle hnone => exact absurd (hkind ▸ by simp) hnone
  exact htoken.tokenMarks (c := ',') nofun nofun

/-- What is recorded of the token are its characters. -/
def IsRecorded (t : DocToken) : Prop :=
  ∀ text, recordToken t text = t.text.toList.foldl Text.addSpaced text

theorem foldl_isRecorded {tokens : List DocToken} (h : ∀ t ∈ tokens, IsRecorded t)
    (text : List Char) : tokens.foldl (fun text t => recordToken t text) text =
      (tokensText tokens).toList.foldl Text.addSpaced text := by
  induction tokens generalizing text with
  | nil => rfl
  | cons t tokens ih =>
    obtain ⟨ht, htokens⟩ := List.forall_mem_cons.1 h
    rw [List.foldl_cons, ih htokens, ht, tokensText_cons, String.toList_append, List.foldl_append]

end Doc

open Doc

namespace TagReader

variable {α : Type} {s : TagState} {tokens after : List DocToken}

theorem run_map {β : Type} (f : α → β) (m : TagReader α) (s : TagState) :
    (f <$> m).run s = (f (m.run s).1, (m.run s).2) :=
  rfl

/-! ### Recordings -/

/-- The text of a recording is what the tokens say that are taken meanwhile. -/
theorem recording_gives {m : TagReader α} {a : α} (hrest : s.rest = tokens ++ after)
    (hrecorded : ∀ t ∈ tokens, IsRecorded t)
    (h : m.run s.beginRecording = (a, s.beginRecording.after tokens.length)) :
    (recording m).run s =
      ((a, Text.recorded (tokensText tokens).toList), s.after tokens.length) := by
  have hrecordings : (s.beginRecording.after tokens.length).recordings.head? =
      some (Text.spaced (tokensText tokens).toList) := by
    have htake : s.beginRecording.rest.take tokens.length = tokens := by
      show s.rest.take tokens.length = tokens
      rw [hrest, List.take_left]
    rw [TagState.recordings_after, htake]
    exact congrArg some (foldl_isRecorded hrecorded [])
  obtain ⟨more, hmore⟩ := List.head?_eq_some_iff.1 hrecordings
  have htext : (s.beginRecording.after tokens.length).endRecording.1 =
      Text.recorded (tokensText tokens).toList := by
    rw [TagState.endRecording, hmore]
    rfl
  have hrun : (recording m).run s =
      (((m.run s.beginRecording).1, (m.run s.beginRecording).2.endRecording.1),
        (m.run s.beginRecording).2.endRecording.2) :=
    rfl
  rw [hrun, h, htext, TagState.after_endRecording]
  rfl

/-- A program that takes tokens and leaves others has taken those in front. -/
theorem Takes.eq_after {m : TagReader α} {Q : Nat → α → Prop} (h : Takes m s Q)
    (hrest : s.rest = tokens ++ after) (hleft : (m.run s).2.rest = after) :
    (m.run s).2 = s.after tokens.length := by
  obtain ⟨n, hn, -, hrun, -⟩ := h
  have hlength := congrArg List.length hrest
  rw [hrun, s.rest_after] at hleft
  have hdrop := congrArg List.length hleft
  rw [List.length_append] at hlength
  rw [List.length_drop] at hdrop
  rw [hrun, show n = tokens.length by omega]

/-! ### Arguments -/

variable {close : DocToken} {depth : Nat}

theorem atMarker_eq_false {t : DocToken} {rest : List DocToken} (hrest : s.rest = t :: rest)
    (ht : t.kind ≠ .tag) : s.atMarker = false := by
  rw [TagState.atMarker, TagState.kind?_eq hrest]
  simp [ht]

/-- The arguments up to the parenthesis that closes their list are the texts between the commas
outside parentheses. The first of them is being recorded. -/
theorem argumentsFrom_gives (hrest : s.rest = tokens ++ close :: after)
    (hclose : close.kind = .rparen) (hparts : ∀ t ∈ tokens, IsPart t)
    (hrecorded : ∀ t ∈ tokens, IsRecorded t)
    (hnesting : nesting depth (tokens.flatMap tokenMarks) = some 0) {text : List Char}
    {outer : List (List Char)} (hrecordings : s.recordings = text :: outer) :
    ∃ first more, splitArguments depth (tokens.flatMap tokenMarks) = first :: more ∧
      (argumentsFrom depth s).1 =
        String.ofList (Text.trimChars (first.foldl Text.addSpaced text)) ::
          more.map Text.recorded ∧
      (argumentsFrom depth s).2.rest = close :: after := by
  induction tokens generalizing s depth text outer with
  | nil =>
    obtain rfl : depth = 0 := Option.some.inj hnesting
    rw [argumentsFrom_cons 0 hrest, if_pos (.inr ⟨hclose, rfl⟩), TagState.endRecording, hrecordings]
    exact ⟨[], [], rfl, rfl, hrest⟩
  | cons t tokens ih =>
    obtain ⟨ht, hparts⟩ := List.forall_mem_cons.1 hparts
    obtain ⟨hrecord, hrecorded⟩ := List.forall_mem_cons.1 hrecorded
    have hmarker := atMarker_eq_false hrest ht.kind_ne_tag
    rw [List.flatMap_cons] at hnesting ⊢
    rw [argumentsFrom_cons depth hrest]
    by_cases hcomma : t.kind = .comma ∧ depth = 0
    · obtain ⟨hkind, rfl⟩ := hcomma
      have hstop : ¬ (s.atMarker = true ∨ t.kind = .rparen ∧ 0 = 0) := by
        simp [hmarker, hkind]
      have hmarks := ht.tokenMarks_comma hkind
      rw [hmarks, List.singleton_append] at hnesting ⊢
      have hmore : nesting 0 (tokens.flatMap tokenMarks) = some 0 := hnesting
      obtain ⟨first, more, hsplit, htexts, hleft⟩ := ih
        (s := (s.endRecording.2.pass t (tokens ++ close :: after)).beginRecording) rfl hparts
        hrecorded hmore rfl
      rw [if_neg hstop, if_pos ⟨hkind, rfl⟩, splitArguments, if_pos ⟨rfl, rfl, rfl⟩]
      have htext : s.endRecording.1 = String.ofList (Text.trimChars text) := by
        rw [TagState.endRecording, hrecordings]
      exact ⟨[], first :: more, by rw [hsplit], congrArg₂ List.cons htext htexts, hleft⟩
    · obtain ⟨hafter, hsplit⟩ := ht.step (tokens.flatMap tokenMarks) depth
      have hsplit := hsplit hcomma
      rw [hnesting] at hafter
      have hclosed : ¬ (t.kind = .rparen ∧ depth = 0) := by
        intro hzero
        rw [if_pos hzero] at hafter
        cases hafter
      rw [if_neg hclosed] at hafter
      have hmore := hafter.symm
      have hstop : ¬ (s.atMarker = true ∨ t.kind = .rparen ∧ depth = 0) := by
        simp [hmarker, hclosed]
      have hpass : (s.pass t (tokens ++ close :: after)).recordings =
          t.text.toList.foldl Text.addSpaced text :: outer.map (recordToken t) := by
        show s.recordings.map (recordToken t) = _
        rw [hrecordings, List.map_cons, hrecord]
      obtain ⟨first, more, hothers, htexts, hleft⟩ := ih
        (s := s.pass t (tokens ++ close :: after)) rfl hparts hrecorded hmore hpass
      rw [if_neg hstop, if_neg hcomma, hsplit, hothers]
      refine ⟨t.text.toList ++ first, more, rfl, ?_, hleft⟩
      rw [List.foldl_append]
      exact htexts

theorem takeKind_gives {kind : DocKind} {t : DocToken} {rest : List DocToken}
    (hrest : s.rest = t :: rest) (ht : t.kind = kind) :
    (takeKind kind).run s = ((), s.after 1) := by
  have hrun : (takeKind kind).run s =
      (if s.kind? == some kind then take else pure () : TagReader Unit).run s :=
    rfl
  rw [hrun, TagState.kind?_eq hrest, ht, beq_self_eq_true, if_pos rfl]
  rfl

/-- The arguments of a call, as they are given. -/
def argumentsOf (texts : List (List Char)) : List String :=
  if texts.map Text.recorded = [""] then [] else texts.map Text.recorded

/-- The arguments of a call are the texts between the commas outside further parentheses. -/
theorem arguments_gives {opened : DocToken} (hrest : s.rest = opened :: tokens ++ close :: after)
    (hclose : close.kind = .rparen) (hparts : ∀ t ∈ tokens, IsPart t)
    (hrecorded : ∀ t ∈ tokens, IsRecorded t)
    (hnesting : nesting 0 (tokens.flatMap tokenMarks) = some 0) :
    arguments.run s = (argumentsOf (splitArguments 0 (tokens.flatMap tokenMarks)),
      s.after (opened :: tokens ++ [close]).length) := by
  have hfirst : (s.after 1).rest = tokens ++ close :: after := by
    rw [s.rest_after, hrest]
    rfl
  obtain ⟨first, more, hsplit, htexts, hleft⟩ := argumentsFrom_gives
    (s := (s.after 1).beginRecording) hfirst hclose hparts hrecorded hnesting rfl
  have htexts : (argumentsFrom 0 (s.after 1).beginRecording).1 =
      (splitArguments 0 (tokens.flatMap tokenMarks)).map Text.recorded := by
    rw [htexts, hsplit]
    rfl
  have htakes : Takes (modify TagState.beginRecording >>= fun _ => argumentsFrom 0) (s.after 1) :=
    let ⟨k, hk, hunmarked, hrun⟩ := takes_argumentsFrom (s := (s.after 1).beginRecording) 0
    ⟨k, hk, ((s.after 1).unmarked_beginRecording k).1 hunmarked, hrun, trivial⟩
  have hstate : (argumentsFrom 0 (s.after 1).beginRecording).2 = (s.after 1).after tokens.length :=
    htakes.eq_after hfirst hleft
  have hrun : arguments.run s =
      let r := argumentsFrom 0 (s.after 1).beginRecording
      (if r.1 = [""] then [] else r.1, ((takeKind .rparen).run r.2).2) :=
    rfl
  rw [hrun]
  dsimp only
  rw [takeKind_gives hleft hclose, htexts, hstate, ← s.after_add, ← s.after_add]
  refine Prod.ext rfl (congrArg s.after ?_)
  simp only [List.length_append, List.length_cons, List.length_nil]
  omega

/-! ### Names -/

/-- The tokens are names with a dot between each two of them. -/
inductive QualifiedName : List DocToken → Prop where
  | one {t : DocToken} (h : t.kind = .identifier) : QualifiedName [t]
  | more {t dot : DocToken} {tokens : List DocToken} (h : t.kind = .identifier)
      (hdot : dot.kind = .dot) (hmore : QualifiedName tokens) : QualifiedName (t :: dot :: tokens)

/-- Behind a name its qualifiers are taken, up to what is no dot. -/
theorem qualifiers_gives {t : DocToken} (h : QualifiedName (t :: tokens))
    (hrest : s.rest = tokens ++ after) (hafter : ∀ u ∈ after.head?, u.kind ≠ .dot) :
    qualifiers s = (tokens, s.after tokens.length) := by
  generalize hall : t :: tokens = all at h
  induction h generalizing s t tokens with
  | one =>
    obtain ⟨-, rfl⟩ := List.cons.inj hall
    cases hnext : after with
    | nil =>
      refine qualifiers_nil fun dot name rest hdot => ?_
      rw [hrest, hnext] at hdot
      cases hdot
    | cons dot rest =>
      have hdot : dot.kind ≠ .dot := hafter dot (by rw [hnext]; rfl)
      cases rest with
      | nil =>
        refine qualifiers_nil fun dot name rest hdot => ?_
        rw [hrest, hnext] at hdot
        cases hdot
      | cons name rest =>
        rw [qualifiers_cons (hrest.trans hnext), if_neg fun h => hdot h.1]
        rfl
  | @more _ dot others _ hdot hmore ih =>
    obtain ⟨-, rfl⟩ := List.cons.inj hall
    obtain ⟨name, rest, rfl, hname⟩ :
        ∃ name rest, others = name :: rest ∧ name.kind = .identifier := by
      cases hmore with
      | one h => exact ⟨_, _, rfl, h⟩
      | more h => exact ⟨_, _, rfl, h⟩
    have hrest : s.rest = dot :: name :: (rest ++ after) := hrest
    have hstate : (s.pass dot (name :: (rest ++ after))).pass name (rest ++ after) = s.after 2 := by
      rw [← TagState.take_eq_pass hrest]
      exact (TagState.take_eq_pass (by rw [TagState.rest_take, hrest]; rfl)).symm
    rw [qualifiers_cons hrest, if_pos ⟨hdot, hname⟩, hstate,
      ih (s := s.after 2) (by rw [s.rest_after, hrest]; rfl) rfl, ← s.after_add]
    refine Prod.ext rfl (congrArg s.after ?_)
    simp only [List.length_cons]
    omega

theorem dottedName_gives (h : QualifiedName tokens) (hrest : s.rest = tokens ++ after)
    (hafter : ∀ u ∈ after.head?, u.kind ≠ .dot) :
    dottedName.run s = (some (.parse (tokensText tokens)), s.after tokens.length) := by
  obtain ⟨t, more, rfl, ht⟩ : ∃ t more, tokens = t :: more ∧ t.kind = .identifier := by
    cases h with
    | one h => exact ⟨_, _, rfl, h⟩
    | more h => exact ⟨_, _, rfl, h⟩
  have hfirst : (s.after 1).rest = more ++ after := by
    rw [s.rest_after, hrest]
    rfl
  have hrun : dottedName.run s =
      (some (.parse (docText (t :: (qualifiers (s.after 1)).1))), (qualifiers (s.after 1)).2) := by
    rw [dottedName, run_get, hrest]
    dsimp only [List.cons_append]
    rw [if_neg (not_not.2 ht)]
    rfl
  rw [hrun, qualifiers_gives h hfirst hafter, ← s.after_add]
  refine Prod.ext rfl (congrArg s.after ?_)
  simp only [List.length_cons]
  omega

/-! ### References -/

/-- The tokens are arguments in parentheses, or none. -/
inductive ArgumentList : List DocToken → Option (List String) → Prop where
  | none : ArgumentList [] none
  | call {opened close : DocToken} {tokens : List DocToken} (hopened : opened.kind = .lparen)
      (hclose : close.kind = .rparen) (hparts : ∀ t ∈ tokens, IsPart t)
      (hrecorded : ∀ t ∈ tokens, IsRecorded t)
      (hnesting : nesting 0 (tokens.flatMap tokenMarks) = some 0) :
      ArgumentList (opened :: tokens ++ [close])
        (some (argumentsOf (splitArguments 0 (tokens.flatMap tokenMarks))))

variable {names tokens after : List DocToken} {args : Option (List String)}

/-- A reference is the name and the arguments that its tokens are. -/
theorem reference_gives (hnames : QualifiedName names) (hargs : ArgumentList tokens args)
    (hrecorded : ∀ t ∈ names, IsRecorded t) (hrest : s.rest = names ++ (tokens ++ after))
    (hafter : ∀ t ∈ after.head?, t.kind ∉ [.dot, .lparen]) :
    reference.run s =
      ({ name := .parse (tokensText names), text := Text.recorded (tokensText names).toList, args },
        s.after (names ++ tokens).length) := by
  have hnext : ∀ t ∈ (tokens ++ after).head?, t.kind ≠ .dot := by
    cases hargs with
    | none => exact fun t ht hkind => hafter t ht (hkind ▸ by simp)
    | call hopened =>
      intro t ht
      obtain rfl := Option.some.inj ht
      exact hopened ▸ nofun
  have hname : (recording dottedName).run s = ((some (.parse (tokensText names)),
      Text.recorded (tokensText names).toList), s.after names.length) :=
    recording_gives hrest hrecorded (dottedName_gives hnames hrest hnext)
  have hleft : (s.after names.length).rest = tokens ++ after := by
    rw [s.rest_after, hrest, List.drop_left]
  have hrun : reference.run s = (do
      return { name := .parse (tokensText names), text := Text.recorded (tokensText names).toList,
               args := ← if (s.after names.length).kind? == some .lparen then some <$> arguments
                 else pure none : Reference } : TagReader Reference).run (s.after names.length) := by
    have hfirst : reference.run s = (do
      return { name := ((recording dottedName).run s).1.1.getD .empty,
               text := ((recording dottedName).run s).1.2,
               args := ← if ((recording dottedName).run s).2.kind? == some .lparen
                 then some <$> arguments
                 else pure none : Reference } : TagReader Reference).run
                  ((recording dottedName).run s).2 :=
      rfl
    rw [hfirst, hname]
    rfl
  rw [hrun]
  cases hargs with
  | none =>
    have hno : ¬ ((s.after names.length).kind? == some .lparen) = true := by
      intro h
      obtain ⟨t, rest, hcons, hkind⟩ := TagState.rest_ne_nil_of_kind? (eq_of_beq h)
      refine hafter t ?_ (hkind ▸ by simp)
      rw [show after = t :: rest from hleft.symm.trans hcons]
      rfl
    rw [if_neg hno, List.append_nil]
    rfl
  | @call opened close tokens hopened hclose hparts hrecorded hnesting =>
    have hcall : s.rest.drop names.length = opened :: tokens ++ close :: after := by
      rw [← s.rest_after, hleft, List.append_assoc]
      rfl
    have hyes : ((s.after names.length).kind? == some .lparen) = true := by
      rw [TagState.kind?_eq ((s.rest_after _).trans hcall), hopened]
      rfl
    have hgives := arguments_gives ((s.rest_after _).trans hcall) hclose hparts hrecorded hnesting
    rw [if_pos hyes, run_bind, run_map, hgives, ← s.after_add, ← List.length_append]
    rfl

/-- What a link points at: a member behind a mark, or a name. -/
def linked (hash : Bool) (ref : Reference) : LinkTarget :=
  if hash then .hash ref else .identifier ref

/-- A link to a reference points at it. -/
theorem linkTarget_gives (expression : TagReader DocExpr) {hash : Option DocToken}
    (hhash : ∀ t ∈ hash, t.kind = .hash) (hnames : QualifiedName names)
    (hargs : ArgumentList tokens args) (hrecorded : ∀ t ∈ names, IsRecorded t)
    (hrest : s.rest = hash.toList ++ (names ++ (tokens ++ after)))
    (hafter : ∀ t ∈ after.head?, t.kind ∉ [.dot, .lparen]) :
    (linkTarget expression).run s =
      (linked hash.isSome { name := .parse (tokensText names),
                            text := Text.recorded (tokensText names).toList, args },
        s.after (hash.toList ++ (names ++ tokens)).length) := by
  obtain ⟨t, more, rfl, ht⟩ : ∃ t more, names = t :: more ∧ t.kind = .identifier := by
    cases hnames with
    | one h => exact ⟨_, _, rfl, h⟩
    | more h => exact ⟨_, _, rfl, h⟩
  cases hash with
  | none =>
    have hrun : (linkTarget expression).run s = (.identifier <$> reference).run s := by
      rw [linkTarget, run_get, hrest]
      dsimp only [Option.toList_none, List.nil_append, List.cons_append]
      rw [ht]
    rw [hrun, run_map, reference_gives hnames hargs hrecorded hrest hafter]
    rfl
  | some h =>
    have hkind : h.kind = .hash := hhash h rfl
    have hsecond : s.secondKind? = some .identifier := by
      rw [TagState.secondKind?, hrest]
      exact congrArg some ht
    have hrun : (linkTarget expression).run s = (.hash <$> reference).run (s.after 1) := by
      rw [linkTarget, run_get, hrest]
      dsimp only [Option.toList_some, List.singleton_append]
      rw [hkind]
      show (if s.secondKind? == some .identifier then _ else _ : TagReader LinkTarget).run s = _
      rw [hsecond]
      rfl
    have hleft : (s.after 1).rest = t :: more ++ (tokens ++ after) := by
      rw [s.rest_after, hrest]
      rfl
    rw [hrun, run_map, reference_gives hnames hargs hrecorded hleft hafter, ← s.after_add]
    refine Prod.ext rfl (congrArg s.after ?_)
    rw [Option.toList_some, List.singleton_append, List.length_cons, Nat.add_comm]

/-- The fields of a link are its target and the text of all its tokens. -/
theorem link_gives (expression : TagReader DocExpr) {hash : Option DocToken} {blank : DocToken}
    (hblank : blank.kind = .whitespace) (hhash : ∀ t ∈ hash, t.kind = .hash)
    (hnames : QualifiedName names) (hargs : ArgumentList tokens args)
    (hrecorded : ∀ t ∈ hash.toList ++ (names ++ tokens), IsRecorded t)
    (hrest : s.rest = blank :: (hash.toList ++ (names ++ tokens) ++ after))
    (hafter : ∀ t ∈ after.head?, t.kind ∉ [.dot, .lparen]) :
    (link expression).run s =
      (.link
        (linked hash.isSome { name := .parse (tokensText names),
                              text := Text.recorded (tokensText names).toList, args })
        (Text.recorded (tokensText (hash.toList ++ (names ++ tokens))).toList),
        s.after (blank :: (hash.toList ++ (names ++ tokens))).length) := by
  let reference := hash.toList ++ (names ++ tokens)
  obtain ⟨t, more, hfirst, ht⟩ :
      ∃ t more, reference ++ after = t :: more ∧ t.kind ≠ .whitespace := by
    cases hash with
    | some h => exact ⟨h, _, rfl, hhash h rfl ▸ nofun⟩
    | none =>
      cases hnames with
      | one h => exact ⟨_, _, rfl, h ▸ nofun⟩
      | more h => exact ⟨_, _, rfl, h ▸ nofun⟩
  have hskip : skipBlanks.run s = ((), s.after 1) := by
    have hnext : s.rest = blank :: t :: more := hrest.trans (congrArg (blank :: ·) hfirst)
    rw [TagState.after_one hnext]
    exact skipBlanks_one hnext hblank ht
  have hleft : (s.after 1).rest = reference ++ after := by
    rw [s.rest_after, hrest]
    rfl
  have htarget := linkTarget_gives (s := (s.after 1).beginRecording) expression hhash hnames hargs
    (fun t ht => hrecorded t (List.mem_append_right _ (List.mem_append_left _ ht)))
    (by rw [← List.append_assoc names, ← List.append_assoc]; exact hleft) hafter
  rw [link, run_bind, hskip, run_bind, recording_gives hleft hrecorded htarget]
  show (_, (s.after 1).after reference.length) = _
  rw [← s.after_add, List.length_cons, Nat.add_comm]

end TagReader
end SqlDoc

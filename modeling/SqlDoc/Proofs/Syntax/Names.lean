/-
# The name of a node is the name its text spells

The node of an identifier is named when its tokens are read: each part is the normal form of a token.
The flattened text of the node has the same parts with dots between them, and a blank wherever there
was trivia. It is split at its dots again (`Name.pieces`), where a dot in quotes does not count: a
token that names something is passed without a split (`Name.Undivided`), and the blanks around it
are trimmed away. So both ways to the name of a node lead to the same name (`parseSql_names`).

Key definitions: `Name.prepend`, `Name.Undivided`, `Name.Spells`, `Spaced`.
Key theorems: `Name.undivided_isNameText`, `Name.Spells.parse`, `spaced_flatten`,
`DottedParts.spells`, `parseSql_names`.
-/
import SqlDoc.Proofs.Sql.Spellings
import SqlDoc.Proofs.Syntax.FlatText
import SqlDoc.Proofs.Syntax.Labelling

namespace SqlDoc

/-- The blank of a gap, if there is one. -/
def gap (there : Bool) : List Char :=
  if there then [' '] else []

theorem isBlank_of_mem_gap {there : Bool} {c : Char} (h : c ∈ gap there) :
    Text.isBlank c = true := by
  cases there with
  | false => cases h
  | true =>
    rw [List.mem_singleton.1 h]
    decide

namespace Name

variable {quoted after last : Bool} {c : Char} {text front back piece : List Char}
  {parts : List String}

/-! ### Texts without a split -/

/-- A text put in front of the first piece. -/
def prepend (front : List Char) : List (List Char) → List (List Char)
  | [] => [front]
  | piece :: more => (front ++ piece) :: more

theorem prepend_prepend (front back : List Char) (pieces : List (List Char)) :
    prepend front (prepend back pieces) = prepend (front ++ back) pieces := by
  cases pieces with
  | nil => rfl
  | cons piece more => rw [prepend, prepend, prepend, List.append_assoc]

theorem prepend_nil_pieces (quoted : Bool) (text : List Char) :
    prepend [] (pieces quoted text) = pieces quoted text := by
  cases hpieces : pieces quoted text with
  | nil => exact absurd hpieces (pieces_ne_nil quoted text)
  | cons piece more => rfl

/-- No split lies in the text, and what comes after it is inside quotes as `after` says. -/
def Undivided (quoted after : Bool) (text : List Char) : Prop :=
  ∀ rest, pieces quoted (text ++ rest) = prepend text (pieces after rest)

theorem undivided_nil : Undivided quoted quoted [] :=
  fun rest => (prepend_nil_pieces quoted rest).symm

theorem Undivided.append (h : Undivided quoted after front) (hback : Undivided after last back) :
    Undivided quoted last (front ++ back) := by
  intro rest
  rw [List.append_assoc, h, hback, prepend_prepend]

theorem undivided_single (hdot : c ≠ '.' ∨ quoted = true) :
    Undivided quoted (if c = '"' then !quoted else quoted) [c] := by
  intro rest
  have hnot : ¬ (c = '.' ∧ !quoted) := by
    rintro ⟨rfl, hquoted⟩
    rcases hdot with hdot | rfl
    · exact hdot rfl
    · cases hquoted
  rw [List.singleton_append, pieces, if_neg hnot]
  cases pieces (if c = '"' then !quoted else quoted) rest <;> rfl

theorem undivided_quote : Undivided quoted (!quoted) ['"'] :=
  undivided_single (.inl (by decide))

theorem undivided_of_ne (hdot : c ≠ '.' ∨ quoted = true) (hquote : c ≠ '"') :
    Undivided quoted quoted [c] := by
  have h := undivided_single hdot
  rwa [if_neg hquote] at h

theorem undivided_gap (there : Bool) : Undivided false false (gap there) := by
  cases there with
  | false => exact undivided_nil
  | true => exact undivided_of_ne (.inl (by decide)) (by decide)

/-- A word is passed without a split. -/
theorem undivided_word {text : List Char} (h : ∀ c ∈ text, Sql.wordRest.mem c = true) :
    Undivided false false text := by
  induction text with
  | nil => exact undivided_nil
  | cons c text ih =>
    obtain ⟨hc, htext⟩ := List.forall_mem_cons.1 h
    have hmarks : c ∉ ['.', '"'] := Sql.not_mem_of_wordRest (by decide) hc
    simp only [List.mem_cons, List.not_mem_nil, or_false, not_or] at hmarks
    exact (undivided_of_ne (.inl hmarks.1) hmarks.2).append (ih htext)

/-- What stands between quotes leaves the text inside them. -/
theorem undivided_betweenQuotes {text : List Char}
    (h : (Pattern.betweenQuotes '"').Describes text) : Undivided true true text := by
  rw [Pattern.betweenQuotes] at h
  cases h with
  | left hother =>
    cases hother with
    | @set _ c hc =>
      rw [CharSet.mem_compl, CharSet.mem_single] at hc
      exact undivided_of_ne (.inr rfl) (by simpa using hc)
  | right hpair =>
    cases hpair with
    | seq hfirst hsecond =>
      rw [hfirst.eq_of_single, hsecond.eq_of_single]
      exact undivided_quote.append undivided_quote

theorem undivided_many {text : List Char}
    (h : (Pattern.many (Pattern.betweenQuotes '"')).Describes text) : Undivided true true text := by
  generalize hp : Pattern.many (Pattern.betweenQuotes '"') = p at h
  induction h with
  | once hone =>
    cases hp
    exact undivided_betweenQuotes hone
  | more hone _ _ ih =>
    cases hp
    exact (undivided_betweenQuotes hone).append (ih rfl)
  | _ => cases hp

/-- What names something is passed without a split. -/
theorem undivided_isNameText (h : Sql.IsNameText text) : Undivided false false text := by
  rcases h with hword | hquoted
  · obtain ⟨_, _, -, -, hall⟩ := Sql.exists_of_describes_word hword
    exact undivided_word hall
  · obtain ⟨inner, rfl, hinner⟩ := Sql.exists_of_describes_quoted hquoted
    have hbetween : Undivided true true inner := by
      rcases hinner with rfl | hinner
      · exact undivided_nil
      · exact undivided_many hinner
    exact undivided_quote.append (hbetween.append undivided_quote)

/-! ### Texts that spell names -/

/-- The normal form of a piece. -/
def partOf (piece : List Char) : String :=
  normalizeIdentifier (String.ofList piece)

theorem partOf_gap_append (there : Bool) (piece : List Char) :
    partOf (gap there ++ piece) = partOf piece := by
  have htrim : Text.trimChars (gap there ++ piece) = Text.trimChars piece :=
    Text.trimChars_append fun _ => isBlank_of_mem_gap
  rw [partOf, partOf, normalizeIdentifier, normalizeIdentifier, String.toList_ofList,
    String.toList_ofList, htrim]

theorem partOf_append_gap (piece : List Char) (there : Bool) :
    partOf (piece ++ gap there) = partOf piece := by
  cases there with
  | false => rw [gap, if_neg Bool.false_ne_true, List.append_nil]
  | true =>
    have htrim : Text.trimChars (piece ++ gap true) = Text.trimChars piece :=
      Text.trimChars_concat (by decide)
    rw [partOf, partOf, normalizeIdentifier, normalizeIdentifier, String.toList_ofList,
      String.toList_ofList, htrim]

/-- However the text goes on, it is split into pieces whose normal forms are the parts. The last
piece goes on with the text, and is not blank. -/
def Spells (text : List Char) (parts : List String) : Prop :=
  ∃ first last, (∀ rest, pieces false (text ++ rest) = first ++ prepend last (pieces false rest)) ∧
    parts = first.map partOf ++ [partOf last] ∧ ∃ c ∈ last, Text.isBlank c = false

namespace Spells

theorem single (h : Sql.IsNameText piece) (there : Bool) :
    Spells (gap there ++ piece) [partOf piece] := by
  obtain ⟨c, tail, hcons, hblank⟩ := h.exists_cons
  refine ⟨[], gap there ++ piece, (undivided_gap there).append (undivided_isNameText h), ?_, c, ?_,
    hblank⟩
  · rw [partOf_gap_append]
    rfl
  · rw [hcons]
    exact List.mem_append_right _ List.mem_cons_self

/-- Behind a name, a dot and a part make a name with one more part. -/
theorem qualified (h : Spells text parts) (hpart : Sql.IsNameText piece)
    (before between : Bool) :
    Spells (text ++ (gap before ++ '.' :: (gap between ++ piece))) (parts ++ [partOf piece]) := by
  obtain ⟨first, last, hpieces, rfl, -⟩ := h
  obtain ⟨c, tail, hcons, hblank⟩ := hpart.exists_cons
  refine ⟨first ++ [last ++ gap before], gap between ++ piece, fun rest => ?_, ?_, c, ?_, hblank⟩
  · have hdot (rest : List Char) : pieces false ('.' :: rest) = [] :: pieces false rest := by
      rw [pieces, if_pos ⟨rfl, rfl⟩]
    have hname := (undivided_gap between).append (undivided_isNameText hpart)
    simp only [List.append_assoc, List.cons_append]
    rw [hpieces, undivided_gap before, hdot, ← List.append_assoc, hname, prepend_prepend]
    rw [prepend, List.append_nil]
    rfl
  · rw [partOf_gap_append, List.map_append, List.map_singleton, partOf_append_gap]
  · rw [hcons]
    exact List.mem_append_right _ List.mem_cons_self

/-- The name is read from the text. -/
theorem parse (h : Spells text parts) : Name.parse (String.ofList text) = ⟨parts⟩ := by
  obtain ⟨first, last, hpieces, rfl, c, hc, hblank⟩ := h
  have hall : pieces false text = first ++ [last] := by
    have := hpieces []
    rwa [List.append_nil, pieces, prepend, List.append_nil] at this
  have htrim : (Text.trimChars last).isEmpty = false := by
    refine Bool.eq_false_iff.2 fun hempty => ?_
    rw [Text.trimChars_eq_nil.1 (List.isEmpty_iff.1 hempty) c hc] at hblank
    cases hblank
  rw [Name.parse, String.toList_ofList, hall]
  cases first with
  | nil =>
    dsimp only [List.nil_append]
    rw [htrim, if_neg Bool.false_ne_true]
    rfl
  | cons piece more =>
    cases more <;> rw [← List.map_singleton, ← List.map_append] <;> rfl

end Spells
end Name

/-! ### Flattened texts -/

/-- The pieces one after the other, with a gap before each or not. -/
inductive Spaced : List (List Char) → List Char → Prop where
  | nil : Spaced [] []
  | cons (there : Bool) (piece : List Char) {more : List (List Char)} {text : List Char}
      (h : Spaced more text) : Spaced (piece :: more) (gap there ++ (piece ++ text))

theorem Spaced.exists_cons {piece text : List Char} {more : List (List Char)}
    (h : Spaced (piece :: more) text) :
    ∃ there rest, text = gap there ++ (piece ++ rest) ∧ Spaced more rest := by
  cases h with
  | cons there _ h => exact ⟨there, _, rfl, h⟩

theorem Spaced.eq_nil {text : List Char} (h : Spaced [] text) : text = [] := by
  cases h
  rfl

theorem Spaced.exists_append {front back : List (List Char)} {text : List Char}
    (h : Spaced (front ++ back) text) :
    ∃ first second, text = first ++ second ∧ Spaced front first ∧ Spaced back second := by
  induction front generalizing text with
  | nil => exact ⟨[], text, rfl, .nil, h⟩
  | cons piece front ih =>
    obtain ⟨there, rest, rfl, hrest⟩ := h.exists_cons
    obtain ⟨first, second, rfl, hfirst, hsecond⟩ := ih hrest
    refine ⟨_, second, ?_, .cons there piece hfirst, hsecond⟩
    simp only [List.append_assoc]

section

variable {tokens : List SqlToken} {groups : List SqlGroup} {leading : List SqlToken} {t : SqlToken}
  {parts : List String}

/-- Trivia ahead are a gap or nothing. -/
theorem flatten_leading (h : ∀ u ∈ leading, u.isTrivia = true) (started pending : Bool)
    (more : List SqlToken) :
    ∃ pending', flatten started pending (leading ++ more) = flatten started pending' more := by
  induction leading generalizing pending with
  | nil => exact ⟨pending, rfl⟩
  | cons u leading ih =>
    obtain ⟨hu, hleading⟩ := List.forall_mem_cons.1 h
    rw [List.cons_append, flatten_trivia hu]
    exact ih hleading true

/-- What is not the significant token of a group is trivia. -/
theorem isTrivia_of_mem_leading {g : SqlGroup} (h : g ∈ groupsOf tokens) :
    ∀ u ∈ g.leading, u.isTrivia = true := by
  have hgroup := groupsAfter_leading (fun _ hu => absurd hu List.not_mem_nil) g h
  exact fun u hu => isTrivia_of_not_isSignificant (hgroup.1 u hu)

/-- The significant token of a group is a token, and no trivia. -/
theorem key_of_mem_groupsOf (h : .keyed leading t ∈ groupsOf tokens) :
    t.isTrivia = false ∧ t ∈ tokens := by
  have hgroup := groupsAfter_leading (fun _ hu => absurd hu List.not_mem_nil) _ h
  have hsignificant := hgroup.2 t rfl
  unfold Token.isSignificant at hsignificant
  refine ⟨?_, ?_⟩
  · rw [Token.isTrivia, eq_of_beq hsignificant]
    rfl
  · rw [← tokens_groupsOf tokens]
    exact List.mem_flatMap.2 ⟨_, h, List.mem_append_right _ List.mem_cons_self⟩

/-- The texts of the significant tokens. -/
def keyTexts (groups : List SqlGroup) : List (List Char) :=
  (groups.filterMap (·.key?)).map (·.text.toList)

/-- Groups are flattened to the texts of their significant tokens. -/
theorem spaced_flatten (h : ∀ g ∈ groups, g ∈ groupsOf tokens) (started pending : Bool) :
    Spaced (keyTexts groups) (flatten started pending (groups.flatMap (·.tokens))) := by
  induction groups generalizing started pending with
  | nil => exact .nil
  | cons g groups ih =>
    obtain ⟨hg, hgroups⟩ := List.forall_mem_cons.1 h
    have htrivia := isTrivia_of_mem_leading hg
    rw [List.flatMap_cons]
    cases g with
    | keyed leading t =>
      have htrivia : ∀ u ∈ leading, u.isTrivia = true := htrivia
      obtain ⟨pending', hflat⟩ :=
        flatten_leading htrivia started pending ([t] ++ groups.flatMap (·.tokens))
      rw [TokenGroup.tokens_keyed, List.append_assoc, hflat, List.singleton_append,
        flatten_significant (key_of_mem_groupsOf hg).1]
      exact .cons (started && pending') t.text.toList (ih hgroups true false)
    | trailing first rest =>
      obtain ⟨pending', hflat⟩ :=
        flatten_leading htrivia started pending (groups.flatMap (·.tokens))
      rw [TokenGroup.tokens_trailing]
      exact hflat ▸ ih hgroups started pending'

end

/-! ### Flattened names -/

section

variable {source : String} {filename : Option String} {groups : List SqlGroup}
  {leading : List SqlToken} {t : SqlToken} {parts : List String}

theorem name_of_mem_groupsOf (h : .keyed leading t ∈ groupsOf (lexSql source filename).tokens)
    (hname : t.kind.isName = true) :
    Sql.IsNameText t.text.toList ∧ t.value = Name.partOf t.text.toList := by
  obtain ⟨htext, hvalue⟩ := lexSql_name (key_of_mem_groupsOf h).2 hname
  rw [Name.partOf, String.ofList_toList]
  exact ⟨htext, hvalue⟩

/-- The texts of groups that write a name spell it, with gaps between them or not. -/
theorem DottedParts.spells (h : DottedParts groups parts)
    (hgroups : ∀ g ∈ groups, g ∈ groupsOf (lexSql source filename).tokens) {text : List Char}
    (htext : Spaced (keyTexts groups) text) : Name.Spells text parts := by
  induction h generalizing text with
  | @single leading t ht =>
    obtain ⟨hname, hvalue⟩ := name_of_mem_groupsOf (hgroups _ List.mem_cons_self) ht
    have htext : Spaced [t.text.toList] text := htext
    obtain ⟨there, rest, rfl, hnone⟩ := htext.exists_cons
    rw [hvalue, hnone.eq_nil, List.append_nil]
    exact .single hname there
  | @qualified groups parts _ leading leading' dot t hdot ht ih =>
    obtain ⟨hgroups, hlast⟩ := List.forall_mem_append.1 hgroups
    obtain ⟨hdotMem, hlast⟩ := List.forall_mem_cons.1 hlast
    obtain ⟨hname, hvalue⟩ := name_of_mem_groupsOf (hlast _ List.mem_cons_self) ht
    have hdotText : dot.text.toList = ['.'] :=
      lexSql_mark (key_of_mem_groupsOf hdotMem).2 (by rw [hdot]; rfl)
    rw [keyTexts, List.filterMap_append, List.map_append] at htext
    obtain ⟨front, back, rfl, hfront, hback⟩ := htext.exists_append
    have hback : Spaced [dot.text.toList, t.text.toList] back := hback
    rw [hdotText] at hback
    obtain ⟨before, rest, rfl, hlast⟩ := hback.exists_cons
    obtain ⟨between, rest, rfl, hnone⟩ := hlast.exists_cons
    rw [hvalue, hnone.eq_nil, List.append_nil]
    exact (ih hgroups hfront).qualified hname before between

/-- The groups of a node follow one another in the script. -/
theorem groups_infix_groupsOf {tree : SyntaxTree} (htree : tree ∈ (parseSql source filename).trees)
    {p : Placement} (hp : p ∈ tree.placements) :
    p.tree.groups <:+: groupsOf (lexSql source filename).tokens :=
  (groups_infix_of_mem_placements hp).trans (groups_infix_of_mem_trees htree)

/-- The name of the node of an identifier is the name that is read from its flattened text. -/
theorem parseSql_names (source : String) (filename : Option String) {tree : SyntaxTree}
    (htree : tree ∈ (parseSql source filename).trees) {p : Placement} (hp : p ∈ tree.placements)
    (hkind : p.tree.kind = .identifier) : p.tree.name = some (Name.parse p.tree.flatText) := by
  have hnamed := (parseTokens_labelled (lexSql source filename) tree htree).placements p hp
  rw [hkind] at hnamed
  obtain ⟨parts, hname, hparts⟩ := hnamed
  have hgroups := (groups_infix_groupsOf htree hp).subset
  rw [hname, SyntaxTree.flatText, flattenGroups,
    (hparts.spells hgroups (spaced_flatten hgroups false false)).parse]

/-- Of the name of a package the comment and the line end are gone, and the dot in quotes divides
nothing. -/
theorem parseSql_names_quoted :
    let source := "CREATE PACKAGE app -- of the team\n  . \"a.\"\"B\" IS\nEND;"
    ∃ tree ∈ (parseSql source none).trees, ∃ p ∈ tree.placements,
      p.tree.kind = .identifier ∧ p.tree.flatText = "app . \"a.\"\"B\"" ∧
      p.tree.name = some ⟨["APP", "a.\"B"]⟩ ∧ p.tree.name = some (Name.parse p.tree.flatText) := by
  intro source
  have hfacts : (parseSql source none).trees.map (fun tree => tree.placements[1]?.map fun p =>
      (p.tree.kind, p.tree.flatText, p.tree.name)) =
      [some (.identifier, "app . \"a.\"\"B\"", some ⟨["APP", "a.\"B"]⟩)] := by decide +kernel
  obtain ⟨tree, htrees, hfacts⟩ := List.map_eq_singleton_iff.1 hfacts
  obtain ⟨p, hp, hfacts⟩ := Option.map_eq_some_iff.1 hfacts
  obtain ⟨hkind, hfacts⟩ := Prod.mk.inj hfacts
  obtain ⟨htext, hname⟩ := Prod.mk.inj hfacts
  have htree : tree ∈ (parseSql source none).trees := by
    rw [htrees]
    exact List.mem_singleton_self tree
  have hp := List.mem_of_getElem? hp
  exact ⟨tree, htree, p, hp, hkind, htext, hname, parseSql_names source none htree hp hkind⟩

end

end SqlDoc

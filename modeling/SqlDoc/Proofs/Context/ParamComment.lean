/-
# Documenting a parameter

A parameter that is named by a word of the script can be documented by a comment in front of the
method. The comment may write the word in other letters, as long as they are the same in upper case.
The context of the parameter gets the description, and nothing else in the file changes but places
(`resolveAll_paramComment`). The proof goes along the way of the comment: it is a token
(`lexSql_insert`), stands in front of the method (`parseSql_insert`), has one tag
(`parseComment_paramComment`), and the tag is about the parameter (`SaysOf.resolveFrom`).

Key definitions: `Lexed.IsBefore`, `IsWordParameter`, `DescribedAt`.
Key theorems: `exists_paramComment`, `parseSql_insert`, `SaysOf.describedAt`,
`resolveAll_paramComment`.
-/
import SqlDoc.Proofs.Context.Described
import SqlDoc.Proofs.Context.DocComments
import SqlDoc.Proofs.Doc.ParamTag
import SqlDoc.Proofs.Sql.Insertion
import SqlDoc.Proofs.Sql.ReservedWords
import SqlDoc.Proofs.Syntax.Feed

namespace SqlDoc

/-! ### The text of the comment -/

/-- The comment ends with its text, and there are no quotes in it. -/
theorem exists_paramComment {word text : String} (hword : Sql.word.Describes word.toList)
    (htext : Sql.word.Describes text.toList) :
    ∃ body, String.ofList ('/' :: '*' :: body) = paramComment word text ∧
      Text.afterPair '*' '/' body = some [] ∧ ('"' ∉ body ∧ '\'' ∉ body) ∧
      isDocText ('/' :: '*' :: body) = true := by
  obtain ⟨_, _, -, -, hword⟩ := Sql.exists_of_describes_word hword
  obtain ⟨_, _, -, -, htext⟩ := Sql.exists_of_describes_word htext
  let inner := " @param ".toList ++ word.toList ++ " ".toList ++ text.toList ++ " ".toList
  have hinner {c : Char} (hc : Sql.wordRest.mem c = false) (hmarker : c ∉ " @param ".toList) :
      c ∉ inner := by
    have hout {w : List Char} (hw : ∀ d ∈ w, Sql.wordRest.mem d = true) : c ∉ w := by
      intro hmem
      rw [hw c hmem] at hc
      cases hc
    have hblank : c ∉ " ".toList := fun hmem => hmarker (List.mem_append_left _ hmem)
    simp only [inner, List.mem_append, not_or]
    exact ⟨⟨⟨⟨hmarker, hout hword⟩, hblank⟩, hout htext⟩, hblank⟩
  have hstar : '*' ∉ inner := hinner (by decide) (by decide)
  have hdouble : '"' ∉ inner := hinner (by decide) (by decide)
  have hsingle : '\'' ∉ inner := hinner (by decide) (by decide)
  refine ⟨'*' :: (inner ++ ['*', '/']), ?_, ?_, ⟨?_, ?_⟩, rfl⟩
  · rw [← String.toList_inj, String.toList_ofList]
    simp [paramComment, inner]
  · rw [Text.afterPair_cons fun h => absurd h.2 (by simp [inner]), Text.afterPair_append_left hstar,
      Text.afterPair_pair]
  · simpa using hdouble
  · simpa using hsingle

/-! ### The script with the comment -/

theorem take_append_cons_drop {α : Type} {l : List α} {k : Nat} {a : α} (h : l[k]? = some a) :
    l.take k ++ a :: l.drop (k + 1) = l := by
  obtain ⟨hk, rfl⟩ := List.getElem?_eq_some_iff.1 h
  rw [List.getElem_cons_drop, List.take_append_drop]

/-- The text `before` ends in front of `first`: between them are only tokens that are not
significant, and the text does not end with a comment that goes on to the end of its line. -/
def Lexed.IsBefore (lexed : Lexed) (before : String) (first : SqlToken) : Prop :=
  ∃ left trivia more, lexed.tokens = left ++ (trivia ++ first :: more) ∧
    tokensText left = before ∧ (∀ t ∈ trivia, t.isSignificant = false) ∧
    ∀ t ∈ left.getLast?, t.kind ≠ .lineComment

theorem Lexed.isBefore_of_getElem? {lexed : Lexed} {before : String} {first : SqlToken} {k : Nat}
    (hfirst : lexed.tokens[k]? = some first) (htext : tokensText (lexed.tokens.take k) = before)
    (hline : ∀ t ∈ (lexed.tokens.take k).getLast?, t.kind ≠ .lineComment) :
    lexed.IsBefore before first :=
  ⟨_, [], _, (take_append_cons_drop hfirst).symm, htext, by simp, hline⟩

/-- A script whose tokens end in an error is not read to its end. -/
theorem isSome_error_parseTokens {lexed : Lexed} (h : lexed.error.isSome) :
    (parseTokens lexed).error.isSome := by
  obtain ⟨left, hcovers⟩ := parseTokens_covers lexed
  cases herror : (parseTokens lexed).error with
  | some e => rfl
  | none =>
    rw [(hcovers.finished herror).1] at h
    cases h

/-- The trees of a script with a comment in front of a significant token are those of the script,
with the comment in the group of the token, but for places. -/
theorem parseSql_insert {before after : String} {filename : Option String} {first : SqlToken}
    {body : List Char} (hplace : (lexSql (before ++ after) filename).IsBefore before first)
    (hfirst : first.isSignificant = true) (hbody : Text.afterPair '*' '/' body = some [])
    (hquotes : '"' ∉ body ∧ '\'' ∉ body) (hdoc : isDocText ('/' :: '*' :: body) = true) :
    let comment := String.ofList ('/' :: '*' :: body)
    let source := before ++ after
    let parsed := parseSql source filename
    let commented := parseSql (before ++ comment ++ after) filename
    ∃ doc n, doc.kind = .docComment ∧ doc.text = comment ∧
      commented.trees.map .unplaced =
        parsed.trees.map (fun t => (t.regroup (.insertBefore first n doc)).unplaced) ∧
      commented.error.isSome = parsed.error.isSome ∧
      ((lexSql source filename).error = none → SameEnding parsed.error commented.error) := by
  intro comment source parsed commented
  obtain ⟨left, trivia, more, htokens, hleft, htrivia, hline⟩ := hplace
  obtain ⟨left', doc, right', htokens', hleft', htext, hkind, hright', hcause⟩ :=
    lexSql_insert htokens hleft hline hbody hquotes
  have hcomment : comment.toList = '/' :: '*' :: body := String.toList_ofList
  have hkind : doc.kind = .docComment := by
    rw [hkind, hcomment, if_pos hdoc]
  obtain ⟨n, htrees, hending⟩ := parseTokens_insert htokens htokens' hleft' hright'
    (nodup_tokens _ _) htrivia hfirst hkind
  have hsame : (lexSql source filename).error.isSome =
      (lexSql (before ++ comment ++ after) filename).error.isSome := by
    have hsome := congrArg Option.isSome hcause
    rw [Option.isSome_map, Option.isSome_map] at hsome
    exact hsome.symm
  have hending (herror : (lexSql source filename).error = none) :
      SameEnding parsed.error commented.error := by
    refine hending herror (Option.not_isSome_iff_eq_none.1 ?_)
    rw [← hsame, herror]
    exact Bool.false_ne_true
  refine ⟨doc, n, hkind, htext, htrees, ?_, hending⟩
  cases herror : (lexSql source filename).error with
  | none =>
    rcases hending herror with ⟨hnone, hnone'⟩ | ⟨e, e', hsome, hsome', -⟩
    · rw [hnone, hnone']
    · rw [hsome, hsome']
      rfl
  | some e =>
    have herror : (lexSql source filename).error.isSome = true := by rw [herror]; rfl
    have hparsed : parsed.error.isSome = true := isSome_error_parseTokens herror
    have hcommented : commented.error.isSome = true :=
      isSome_error_parseTokens (hsame.symm.trans herror)
    rw [hparsed, hcommented]

/-! ### The statement with the comment -/

variable {source : String} {filename : Option String}

/-- The significant tokens of the statements are, in order, those of the script. -/
theorem parseSql_keys_sublist (source : String) (filename : Option String) :
    (((parseSql source filename).trees.flatMap (·.groups)).filterMap (·.key?)).Sublist
      ((lexSql source filename).tokens.filter (·.isSignificant)) := by
  obtain ⟨left, hcovers⟩ := parseTokens_covers (lexSql source filename)
  have hgroups : groupsOf (lexSql source filename).tokens =
      (parseSql source filename).trees.flatMap (·.groups) ++ left := hcovers.groups_eq
  have hkeys : (groupsOf (lexSql source filename).tokens).filterMap (·.key?) =
      (lexSql source filename).tokens.filter (·.isSignificant) := filterMap_key_groupsAfter [] _
  rw [← hkeys, hgroups, List.filterMap_append]
  exact List.sublist_append_left ..

/-- A comment in front of a token of one tree is put into no other. -/
theorem map_regroup_insertBefore {first doc : SqlToken} {i : Nat} {earlier later : List SyntaxTree}
    {t : SyntaxTree} (hfirst : first ∈ t.keys)
    (hnodup : (((earlier ++ t :: later).flatMap (·.groups)).filterMap (·.key?)).Nodup) :
    (earlier ++ t :: later).map (.regroup (.insertBefore first i doc)) =
      earlier ++ t.regroup (.insertBefore first i doc) :: later := by
  rw [List.flatMap_append, List.flatMap_cons] at hnodup
  have hothers : ∀ g ∈ earlier.flatMap (·.groups) ++ later.flatMap (·.groups),
      g.insertBefore first i doc = g :=
    insertBefore_of_sublist (.refl _) hnodup hfirst
  have hsame (others : List SyntaxTree)
      (hgroups : ∀ g ∈ others.flatMap (·.groups), g.insertBefore first i doc = g) :
      others.map (.regroup (.insertBefore first i doc)) = others := by
    conv_rhs => rw [← others.map_id]
    refine List.map_congr_left fun u hu => ?_
    have hbelow := Forest.sift_eq_self (f := u.below) fun g hg =>
      hgroups g (List.mem_flatMap.2 ⟨u, hu, hg⟩)
    exact congrArg (SyntaxTree.mk u.kind u.name) hbelow
  rw [List.map_append, List.map_cons,
    hsame earlier fun g hg => hothers g (List.mem_append_left _ hg),
    hsame later fun g hg => hothers g (List.mem_append_right _ hg)]

/-- A method of a package has a parameter that is named by a word of the script. The word is not
what the name of another parameter ends with, and in front of the method is no comment. -/
structure IsWordParameter (source : String) (filename : Option String) (s : Nat)
    (unit : SyntaxTree) (n : Nat) (method : SyntaxTree) (first : SqlToken) (j : Nat)
    (parameter : SyntaxTree) (word : SqlToken) : Prop where
  isUnit : (parseSql source filename).trees[s]? = some unit
  isPackage : unit.kind = .createUnit .package
  isMember : (n, method) ∈ unit.numberedChildren 0
  isMethod : ∃ kind, method.kind = .method kind
  firstKey : method.firstKey? = some first
  bare : method.docComments = []
  isParameter : (j, parameter) ∈ method.numberedParameters n
  mem_tokens : word ∈ (lexSql source filename).tokens
  isWord : word.kind.isWord = true
  named : parameter.name = some ⟨[word.value]⟩
  onlyNamed : ∀ q ∈ method.numberedParameters n, q ≠ (j, parameter) →
    q.2.nameOrEmpty.last ≠ word.value

namespace IsWordParameter

variable {s n j : Nat} {unit method parameter : SyntaxTree} {first word : SqlToken}
  (h : IsWordParameter source filename s unit n method first j parameter word)

include h

theorem mem_trees : unit ∈ (parseSql source filename).trees :=
  List.mem_of_getElem? h.isUnit

theorem keys_sublist : method.keys.Sublist unit.keys :=
  (Forest.groups_sublist_of_mem (SyntaxTree.mem_trees_of_numbered h.isMember)).filterMap _

theorem mem_unit_keys : first ∈ unit.keys :=
  h.keys_sublist.subset (SyntaxTree.mem_keys_of_firstKey? h.firstKey)

theorem unit_sublist :
    unit.keys.Sublist ((lexSql source filename).tokens.filter (·.isSignificant)) := by
  refine List.Sublist.trans ?_ (parseSql_keys_sublist source filename)
  obtain ⟨earlier, later, htrees⟩ := List.append_of_mem h.mem_trees
  rw [htrees, List.flatMap_append, List.flatMap_cons]
  exact ((List.sublist_append_left _ _).trans (List.sublist_append_right _ _)).filterMap _

theorem isSignificant : first.isSignificant = true :=
  (List.mem_filter.1 (h.unit_sublist.subset h.mem_unit_keys)).2

/-- A comment in front of the method is in front of no other declaration. -/
theorem frontedIn {kind : MethodKind} (hkind : method.kind = .method kind) {doc : SqlToken}
    (hdoc : doc.kind = .docComment) (i : Nat) : FrontedIn first doc i kind method n unit := by
  have hnodup : unit.keys.Nodup :=
    ((nodup_tokens source filename).filter _).sublist h.unit_sublist
  have hne {t : SyntaxTree} (hmem : first ∈ t.keys) : t.groups ≠ [] := by
    intro hnil
    rw [SyntaxTree.keys, hnil] at hmem
    cases hmem
  exact {
    isMethod := hkind
    begins := parseTokens_leading _ unit h.mem_trees h.isPackage method
      (SyntaxTree.mem_trees_of_numbered h.isMember) kind hkind
      (hne (SyntaxTree.mem_keys_of_firstKey? h.firstKey))
    firstKey := h.firstKey
    nodup := hnodup.sublist h.keys_sublist
    isDoc := hdoc
    isPackage := h.isPackage
    unitBegins := parseTokens_begins _ unit h.mem_trees (hne h.mem_unit_keys)
    unitNodup := hnodup
    isMember := h.isMember }

/-- The comment says what the parameter is for. -/
theorem saysOf {kind : MethodKind} (hkind : method.kind = .method kind) {doc : SqlToken}
    (hdoc : doc.kind = .docComment) (i : Nat) {w text : String} (hw : Sql.word.Describes w.toList)
    (hupper : Text.upper w = Text.upper word.text) (htext : Sql.word.Describes text.toList)
    (hcomment : doc.text = paramComment w text) :
    SaysOf first doc i kind method n unit parameter j (.parse w) text := by
  have hvalue : word.value = Text.upper w := by
    obtain ⟨raw, rfl⟩ := lexSql_word h.mem_tokens h.isWord
    exact hupper.symm
  have hlast : (Name.parse w).last = word.value := by
    rw [Name.parse_word hw, hvalue]
    rfl
  have hname : parameter.nameOrEmpty.last = word.value := by
    rw [SyntaxTree.nameOrEmpty, h.named]
    rfl
  exact {
    toFrontedIn := h.frontedIn hkind hdoc i
    fits := parseSql_fits source filename unit h.mem_trees
    bare := h.bare
    isParameter := h.isParameter
    named := by rw [Name.sameBase, hname, hlast, beq_self_eq_true]
    onlyNamed := fun q hq hsame => by
      by_contra hne
      rw [Name.sameBase, hlast, beq_iff_eq] at hsame
      exact h.onlyNamed q hq hne hsame
    tag := by
      rw [hcomment]
      exact parseComment_paramComment hw htext doc.span.start
    notEmpty := by
      rintro rfl
      exact Sql.ne_nil_of_describes_word htext rfl }

end IsWordParameter

/-! ### The file with the comment -/

/-- Which node has which context can be read off the numbers in the records. -/
theorem ContextTable.contextAt?_congr {table other : ContextTable}
    (h : table.comments.map CommentRecord.entry = other.comments.map CommentRecord.entry)
    (s j : Nat) : table.contextAt? s j = other.contextAt? s j := by
  have hentries (table : ContextTable) : table.contextAt? s j =
      (((table.comments.map CommentRecord.entry).filter (·.1 = s)).find? (·.2.1 = j)).bind
        (·.2.2) := by
    rw [contextAt?, List.filter_map, List.find?_map, Option.bind_map]
    rfl
  rw [hentries, hentries, h]

theorem map_entry_unplaced (records : List CommentRecord) :
    (records.map CommentRecord.unplaced).map CommentRecord.entry =
      records.map CommentRecord.entry := by
  rw [List.map_map]
  rfl

/-- A context of the first table has another description in the second. -/
theorem ContextTable.description_of_modify {table other : ContextTable} {target : Nat}
    {text : String} (h : other.rows.map ContextRow.unplaced =
      (table.rows.modify target (·.modifyContext (.withDescription text))).map .unplaced)
    {c : Context} (hc : table.context? target = some c) :
    (other.context? target).map (·.description) = some text := by
  obtain ⟨row, hrow, -⟩ := Option.map_eq_some_iff.1 hc
  have hat := congrArg (·[target]?) h
  rw [List.getElem?_map, List.getElem?_map, List.getElem?_modify_eq, hrow] at hat
  obtain ⟨row', hrow', hsame⟩ := Option.map_eq_some_iff.1 hat
  rw [context?, hrow']
  exact congrArg some (congrArg (fun row => row.context.description) hsame)

/-- Two files are documented in the same way but for places and one description: in the second the
context of node `j` of statement `s` has the description `text`. -/
structure DescribedAt (s j : Nat) (text : String) (out out' : ContextTable × List Diagnostic) :
    Prop where
  description : ∃ target, out.1.contextAt? s j = some target ∧
    (out'.1.context? target).map (·.description) = some text ∧
    out'.1.rows.map ContextRow.unplaced =
      (out.1.rows.modify target (·.modifyContext (.withDescription text))).map .unplaced
  contextAt?_eq : ∀ s j, out'.1.contextAt? s j = out.1.contextAt? s j
  units : out'.1.units = out.1.units
  reports : out'.2.map Diagnostic.unplaced = out.2.map Diagnostic.unplaced

/-- What a comment in front of a method says of a parameter comes into the table. -/
theorem SaysOf.describedAt {first doc : SqlToken} {i : Nat} {kind : MethodKind}
    {m t p : SyntaxTree} {n j : Nat} {name : Name} {text : String}
    (h : SaysOf first doc i kind m n t p j name text) {earlier later commented : List SyntaxTree}
    (hfits : ∀ u ∈ earlier ++ t :: later, u.Fits) (hfits' : ∀ u ∈ commented, u.Fits)
    (hmoved : commented.map SyntaxTree.unplaced =
      (earlier ++ t.regroup (.insertBefore first i doc) :: later).map .unplaced)
    (warnOrphans : Bool) :
    DescribedAt earlier.length j text (resolveAll (earlier ++ t :: later) warnOrphans)
      (resolveAll commented warnOrphans) := by
  let trees := earlier ++ t :: later
  obtain ⟨hunits, hreports, hentries, target, hrecord, hrows⟩ :=
    h.resolveFrom warnOrphans earlier later 0 0
  obtain ⟨hrows', hcomments', hunits', hreports'⟩ := resolve_moved hmoved warnOrphans 0 0
  have hall : resolveAll trees warnOrphans = _ := resolveAll_eq hfits warnOrphans
  have hall' := resolveAll_eq hfits' warnOrphans
  have hget : trees[earlier.length]? = some t := by
    rw [List.getElem?_append_right le_rfl, Nat.sub_self]
    rfl
  have hholds := holds_resolveAll hfits warnOrphans hget
  have hmodify : (resolveAll commented warnOrphans).1.rows.map ContextRow.unplaced =
      ((resolveAll trees warnOrphans).1.rows.modify target
        (·.modifyContext (.withDescription text))).map .unplaced := by
    rw [hall, hall', hrows']
    exact congrArg (List.map ContextRow.unplaced) (hrows [] rfl).symm
  refine ⟨⟨target, hholds.contextAt?_eq h.fits (hrecord _), ?_, hmodify⟩, ?_, ?_, ?_⟩
  · -- the row of the record is in the table
    have hmem := (List.mem_filter.1 (hholds.comments ▸ hrecord earlier.length)).1
    obtain ⟨c, hc, -⟩ := Option.map_eq_some_iff.1 (hholds.throws_context hmem rfl rfl)
    exact ContextTable.description_of_modify hmodify hc
  · refine ContextTable.contextAt?_congr ?_
    rw [hall, hall']
    have hsame := congrArg (List.map CommentRecord.entry) hcomments'
    rw [map_entry_unplaced, map_entry_unplaced] at hsame
    exact hsame.trans hentries
  · rw [hall, hall']
    exact hunits'.trans hunits
  · rw [hall, hall']
    rw [hreports] at hreports'
    obtain ⟨hnow, hlate⟩ := Reports.mk.inj hreports'
    have hboth := congrArg₂ (· ++ ·) hnow hlate
    rw [← List.map_append, ← List.map_append] at hboth
    exact hboth

/-- **Every parameter that is named by a word can be documented.** If a comment in front of a method
of a package says in one word what the parameter is for, and names the parameter by a word that is
the same in upper case, the context of the parameter has the description. Nothing is reported that
was not reported before, and nothing else changes but places. -/
theorem resolveAll_paramComment {before after : String} {filename : Option String}
    {s n j : Nat} {unit method parameter : SyntaxTree} {first word : SqlToken} {w text : String}
    (h : IsWordParameter (before ++ after) filename s unit n method first j parameter word)
    (hplace : (lexSql (before ++ after) filename).IsBefore before first)
    (hw : Sql.word.Describes w.toList) (hupper : Text.upper w = Text.upper word.text)
    (hne : text ≠ "") (hletters : ∀ c ∈ text.toList, c.isAlpha = true) (warnOrphans : Bool) :
    let source := before ++ after
    let parsed := parseSql source filename
    let commented := parseSql (before ++ paramComment w text ++ after) filename
    DescribedAt s j text (resolveAll parsed.trees warnOrphans)
        (resolveAll commented.trees warnOrphans) ∧
      commented.error.isSome = parsed.error.isSome ∧
      ((lexSql source filename).error = none → SameEnding parsed.error commented.error) := by
  intro source parsed commented
  obtain ⟨kind, hkind⟩ := h.isMethod
  have htext := Sql.describes_word_of_isAlpha hne hletters
  obtain ⟨body, hcomment, hbody, hquotes, hdoc⟩ := exists_paramComment hw htext
  obtain ⟨doc, i, hdoc, hdoctext, htrees, herror, hending⟩ :=
    parseSql_insert hplace h.isSignificant hbody hquotes hdoc
  rw [hcomment] at hdoctext htrees herror hending
  refine ⟨?_, herror, hending⟩
  have hsays := h.saysOf hkind hdoc i hw hupper htext hdoctext
  obtain ⟨earlier, later, hsplit, rfl⟩ : ∃ earlier later,
      parsed.trees = earlier ++ unit :: later ∧ earlier.length = s := by
    obtain ⟨hs, -⟩ := List.getElem?_eq_some_iff.1 h.isUnit
    exact ⟨parsed.trees.take s, parsed.trees.drop (s + 1), (take_append_cons_drop h.isUnit).symm,
      List.length_take_of_le hs.le⟩
  have hmoved : commented.trees.map SyntaxTree.unplaced =
      (earlier ++ unit.regroup (.insertBefore first i doc) :: later).map .unplaced := by
    have hnodup : ((parsed.trees.flatMap (·.groups)).filterMap (·.key?)).Nodup :=
      ((nodup_tokens source filename).filter _).sublist (parseSql_keys_sublist source filename)
    rw [hsplit] at hnodup
    rw [← map_regroup_insertBefore h.mem_unit_keys hnodup, ← hsplit, List.map_map]
    exact htrees
  have hfits := parseSql_fits source filename
  rw [show (parseSql source filename).trees = _ from hsplit] at hfits
  rw [hsplit]
  exact hsays.describedAt hfits (parseSql_fits _ _) hmoved warnOrphans

/-- One letter names a parameter, and in upper case it is two. -/
theorem resolveAll_paramComment_sharpS :
    let before := "CREATE PACKAGE p IS "
    let after := "PROCEDURE f(\u00df NUMBER, x NUMBER); END;"
    ∃ unit method first parameter word,
      IsWordParameter (before ++ after) none 0 unit 2 method first 5 parameter word ∧
      (lexSql (before ++ after) none).IsBefore before first ∧
      Text.upper "ss" = Text.upper word.text ∧
      DescribedAt 0 5 "sharp" (resolveAll (parseSql (before ++ after) none).trees true)
        (resolveAll (parseSql (before ++ paramComment "ss" "sharp" ++ after) none).trees true) := by
  intro before after
  have hshape : ∃ t ∈ (parseSql (before ++ after) none).trees[0]?,
      t.kind = .createUnit .package ∧ ∃ q ∈ t.numberedChildren 0, q.1 = 2 ∧
        q.2.kind = .method .procedure ∧ q.2.docComments = [] ∧
        q.2.firstKey? = (lexSql (before ++ after) none).tokens[8]? ∧
        (q.2.numberedParameters q.1).map (fun p => (p.1, p.2.name)) =
          [(5, some ⟨["SS"]⟩), (8, some ⟨["X"]⟩)] := by decide +kernel
  have hwords : ∃ word ∈ (lexSql (before ++ after) none).tokens, word.kind.isWord = true ∧
      word.value = "SS" ∧ Text.upper "ss" = Text.upper word.text := by decide +kernel
  obtain ⟨first, hfirst⟩ : ∃ first, (lexSql (before ++ after) none).tokens[8]? = some first :=
    Option.isSome_iff_exists.1 (by decide +kernel)
  obtain ⟨unit, hunit, hpackage, ⟨_, method⟩, hmember, rfl, hmethod, hbare, hkey, hparameters⟩ :=
    hshape
  obtain ⟨⟨_, parameter⟩, rest, hsplit, hparameter, hrest⟩ := List.map_eq_cons_iff.1 hparameters
  obtain ⟨⟨_, other⟩, rfl, hother⟩ := List.map_eq_singleton_iff.1 hrest
  obtain ⟨rfl, hnamed⟩ := Prod.mk.inj hparameter
  obtain ⟨rfl, hothername⟩ := Prod.mk.inj hother
  obtain ⟨word, hword, hkind, hvalue, hupper⟩ := hwords
  have h : IsWordParameter (before ++ after) none 0 unit 2 method first 5 parameter word := {
    isUnit := hunit
    isPackage := hpackage
    isMember := hmember
    isMethod := ⟨_, hmethod⟩
    firstKey := hkey.trans hfirst
    bare := hbare
    isParameter := hsplit ▸ List.mem_cons_self
    mem_tokens := hword
    isWord := hkind
    named := hvalue ▸ hnamed
    onlyNamed := by
      rw [hsplit, hvalue]
      refine List.forall_mem_cons.2 ⟨fun hne => absurd rfl hne, ?_⟩
      rw [List.forall_mem_singleton, SyntaxTree.nameOrEmpty, hothername]
      exact fun _ => by decide }
  have hplace : (lexSql (before ++ after) none).IsBefore before first :=
    Lexed.isBefore_of_getElem? hfirst (by decide +kernel) (by decide +kernel)
  have hname : Sql.word.Describes "ss".toList := Sql.describes_word_of_isAlpha (by decide)
    (List.all_eq_true.1 (by decide : "ss".toList.all Char.isAlpha = true))
  have hletters : ∀ c ∈ "sharp".toList, c.isAlpha = true :=
    List.all_eq_true.1 (by decide : "sharp".toList.all Char.isAlpha = true)
  exact ⟨unit, method, first, parameter, word, h, hplace, hupper,
    (resolveAll_paramComment h hplace hname hupper (by decide) hletters true).1⟩

/-- A parameter may have a name of two parts. It is told what is said of its last part, and not the
parameter that has the name. -/
theorem paramComment_about_qualified :
    let source := "CREATE PACKAGE p IS " ++ paramComment "w" "d" ++
      " PROCEDURE f(x.w NUMBER, w NUMBER); END;"
    let trees := (parseSql source none).trees
    (∃ word ∈ (lexSql source none).tokens, word.kind.isWord = true ∧ word.text = "w" ∧
      word.value = "W") ∧
      (∃ t ∈ trees[0]?, t.kind = .createUnit .package ∧ ∃ q ∈ t.numberedChildren 0,
        q.2.kind = .method .procedure ∧
          q.2.docComments.map (·.text) = [paramComment "w" "d"] ∧
          (q.2.numberedParameters q.1).map (·.2.name) = [some ⟨["X", "W"]⟩, some ⟨["W"]⟩]) ∧
      (resolveAll trees).1.rows.map (fun row => (row.context.name, row.context.description)) =
        [(⟨["P"]⟩, ""), (⟨["F"]⟩, ""), (⟨["X", "W"]⟩, "d"), (⟨["W"]⟩, "")] := by
  decide +kernel

end SqlDoc

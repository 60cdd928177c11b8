/-
# The codes that pragmas bind

A pragma `PRAGMA EXCEPTION_INIT(exception, code);` binds the code to the first exception of the name,
wherever both stand in the package. What it binds is read from its flattened text, which is cut at
its first parenthesis, its last one and its first comma. The cuts lie where the tokens do
(`codeBinding?_eq`), and so an exception gets the codes of the pragmas whose token names it
(`resolveAll_codes`) -- unless there is a comma in the name, in quotes, and the first comma is that
one (`resolveAll_codes_comma`).

Key definitions: `SyntaxTree.exceptionInit?`, `SyntaxTree.initCodes`.
Key theorems: `codeBinding?_eq`, `resolveAll_codes`.
-/
import SqlDoc.Proofs.Context.Throwing
import SqlDoc.Proofs.Sql.Literals
import SqlDoc.Proofs.Syntax.Names

namespace SqlDoc

/-! ### What the tokens say -/

/-- The number that tokens write up to the end of a pragma, with its sign if it has one. -/
def signedNumber? : List SqlToken → Option String
  | [number, closing, mark] =>
    if number.kind = .number ∧ closing.kind = .rparen ∧ mark.kind = .semicolon then
      some number.text
    else none
  | [sign, number, closing, mark] =>
    if sign.kind = .operator ∧ (sign.text = "+" ∨ sign.text = "-") ∧ number.kind = .number ∧
        closing.kind = .rparen ∧ mark.kind = .semicolon then
      some (sign.text ++ number.text)
    else none
  | _ => none

/-- The name of the exception and the code in `PRAGMA EXCEPTION_INIT(exception, code);`. -/
def SyntaxTree.exceptionInit? (p : SyntaxTree) : Option (SqlToken × String) :=
  if p.kind = .pragma then
    match p.keys with
    | word :: name :: opening :: target :: comma :: more =>
      if word.kind.isWord ∧ name.kind.isWord ∧ name.value = "EXCEPTION_INIT" ∧
          opening.kind = .lparen ∧ target.kind.isName ∧ comma.kind = .comma then
        (signedNumber? more).map fun code => (target, code)
      else none
    | _ => none
  else none

/-- The codes that the pragmas of a unit name an exception for, each once, in order. -/
def SyntaxTree.initCodes (t : SyntaxTree) (exception : String) : List String :=
  (((t.children.filterMap exceptionInit?).filter (·.1.value = exception)).map (·.2)).eraseDups

/-! ### Cutting texts -/

section

variable {c : Char} {before after text : List Char}

theorem splitFirst?_append (h : c ∉ before) :
    splitFirst? c (before ++ c :: after) = some (before, after) := by
  have hbefore : ∀ d ∈ before, decide (d ≠ c) = true :=
    fun d hd => decide_eq_true fun heq => h (heq ▸ hd)
  rw [splitFirst?, List.dropWhile_append_of_pos hbefore, List.takeWhile_append_of_pos hbefore,
    List.dropWhile_cons_of_neg (by simp), List.takeWhile_cons_of_neg (by simp), List.append_nil]

theorem beforeLast?_append (h : c ∉ after) :
    beforeLast? c (before ++ c :: after) = some before := by
  have hreverse : (before ++ c :: after).reverse = after.reverse ++ c :: before.reverse := by
    simp
  rw [beforeLast?, hreverse, splitFirst?_append (by rwa [List.mem_reverse])]
  exact congrArg some (List.reverse_reverse before)

theorem not_mem_gap (hc : c ≠ ' ') (there : Bool) : c ∉ gap there := by
  cases there with
  | false => exact List.not_mem_nil
  | true => exact fun h => hc (List.mem_singleton.1 h)

/-- The text without its blanks. -/
def withoutBlanks (text : List Char) : List Char :=
  text.filter fun c => !Text.isBlank c

theorem withoutBlanks_append (first second : List Char) :
    withoutBlanks (first ++ second) = withoutBlanks first ++ withoutBlanks second :=
  List.filter_append ..

theorem withoutBlanks_gap (there : Bool) : withoutBlanks (gap there) = [] := by
  cases there <;> decide

theorem withoutBlanks_eq_self (h : ∀ c ∈ text, Text.isBlank c = false) :
    withoutBlanks text = text :=
  List.filter_eq_self.2 fun c hc => by rw [h c hc]; rfl

end

/-- A text that names something has no blanks at its ends. -/
theorem Sql.IsNameText.trimChars {text : List Char} (h : IsNameText text) :
    Text.trimChars text = text := by
  rcases h with hword | hquoted
  · obtain ⟨_, _, -, -, hall⟩ := exists_of_describes_word hword
    exact Text.trimChars_eq_self fun c hc => not_isBlank_of_wordRest (hall c hc)
  · obtain ⟨inner, rfl, -⟩ := exists_of_describes_quoted hquoted
    exact Text.trimChars_of_ends (by decide) (by decide)

/-- A name with gaps around it is read as the name. -/
theorem parse_gap_append {piece : List Char} (h : Sql.IsNameText piece) (before after : Bool) :
    Name.parse (Text.trim (String.ofList (gap before ++ (piece ++ gap after)))) =
      ⟨[Name.partOf piece]⟩ := by
  have htrim : Text.trimChars (gap before ++ (piece ++ gap after)) = piece := by
    rw [Text.trimChars_append fun _ => isBlank_of_mem_gap]
    cases after with
    | false => rw [gap, if_neg Bool.false_ne_true, List.append_nil, h.trimChars]
    | true => exact (Text.trimChars_concat (by decide)).trans h.trimChars
  rw [Text.trim, String.toList_ofList, htrim]
  exact (Name.Spells.single h false).parse

/-! ### What the text says -/

section

variable {source : String} {filename : Option String} {tree : SyntaxTree} {p : Placement}
  {more : List SqlToken} {target : SqlToken} {code : String} {text : List Char}

/-- What is left of a pragma after the comma is the code, with gaps, up to the last parenthesis. -/
theorem exists_of_signedNumber? (h : signedNumber? more = some code)
    (hmem : ∀ t ∈ more, t ∈ (lexSql source filename).tokens)
    (htext : Spaced (more.map (·.text.toList)) text) :
    ∃ inner after, text = inner ++ ')' :: after ∧ ')' ∉ after ∧
      String.ofList (withoutBlanks inner) = code := by
  -- the number is at the end, whatever is in front of it
  have hend (front : List Char) {number closing mark : SqlToken} {rest : List Char}
      (hmem : ∀ t ∈ [number, closing, mark], t ∈ (lexSql source filename).tokens)
      (hkinds : number.kind = .number ∧ closing.kind = .rparen ∧ mark.kind = .semicolon)
      (hrest : Spaced [number.text.toList, closing.text.toList, mark.text.toList] rest) :
      ∃ inner after, front ++ rest = inner ++ ')' :: after ∧ ')' ∉ after ∧
        withoutBlanks inner = withoutBlanks front ++ number.text.toList := by
    obtain ⟨hnumber, hmem⟩ := List.forall_mem_cons.1 hmem
    obtain ⟨hclosing, hmem⟩ := List.forall_mem_cons.1 hmem
    rw [lexSql_mark hclosing (by rw [hkinds.2.1]; rfl),
      lexSql_mark (hmem _ List.mem_cons_self) (by rw [hkinds.2.2]; rfl)] at hrest
    obtain ⟨g₁, rest, rfl, hparenthesis⟩ := hrest.exists_cons
    obtain ⟨g₂, rest, rfl, hmark⟩ := hparenthesis.exists_cons
    obtain ⟨g₃, rest, rfl, hnone⟩ := hmark.exists_cons
    refine ⟨front ++ (gap g₁ ++ (number.text.toList ++ gap g₂)), gap g₃ ++ [';'], ?_, ?_, ?_⟩
    · rw [hnone.eq_nil]
      simp only [List.append_assoc, List.cons_append, List.nil_append, List.append_nil]
    · exact List.not_mem_append (not_mem_gap (by decide) g₃) (by decide)
    · simp only [withoutBlanks_append, withoutBlanks_gap, List.nil_append, List.append_nil]
      rw [withoutBlanks_eq_self (lexSql_number hnumber hkinds.1)]
  unfold signedNumber? at h
  split at h
  · rename_i number closing mark
    split at h
    · rename_i hkinds
      obtain ⟨inner, after, htext, hafter, hinner⟩ := hend [] hmem hkinds htext
      refine ⟨inner, after, htext, hafter, ?_⟩
      rw [hinner, ← Option.some.inj h]
      exact String.ofList_toList
    · cases h
  · rename_i sign number closing mark
    split at h
    · rename_i hkinds
      obtain ⟨-, hsign, hkinds⟩ := hkinds
      obtain ⟨there, rest, rfl, hrest⟩ := htext.exists_cons
      obtain ⟨inner, after, htext, hafter, hinner⟩ :=
        hend (gap there ++ sign.text.toList)
          (fun t ht => hmem t (List.mem_cons_of_mem _ ht)) hkinds hrest
      refine ⟨inner, after, (List.append_assoc ..).symm.trans htext, hafter, ?_⟩
      have hblanks : withoutBlanks sign.text.toList = sign.text.toList := by
        rcases hsign with hsign | hsign <;> rw [hsign] <;> decide
      rw [hinner, withoutBlanks_append, withoutBlanks_gap, hblanks, ← Option.some.inj h,
        List.nil_append, ← String.toList_append, String.ofList_toList]
    · cases h
  · cases h

/-- The significant token at a place is that of the group there, since only the last group may have
none. -/
theorem exists_group_of_keys {tokens : List SqlToken} {groups : List SqlGroup} {key : SqlToken}
    (h : groups <:+: groupsOf tokens) {i : Nat}
    (hkey : (groups.filterMap (·.key?))[i]? = some key) :
    ∃ leading, groups[i]? = some (.keyed leading key) := by
  obtain ⟨l, r, hall⟩ := h
  induction groups generalizing i l with
  | nil => cases hkey
  | cons g groups ih =>
    cases hg : g.key? with
    | none =>
      rw [List.append_assoc] at hall
      have hnone := after_of_trailing hall.symm hg
      rw [(List.append_eq_nil_iff.1 hnone).1, List.filterMap_cons, hg] at hkey
      cases hkey
    | some first =>
      rw [List.filterMap_cons, hg] at hkey
      cases i with
      | zero =>
        cases Option.some.inj hkey
        cases g with
        | keyed leading key =>
          cases hg
          exact ⟨leading, rfl⟩
        | trailing => cases hg
      | succ i => exact ih hkey (l ++ [g]) (by simpa using hall)

/-- A pragma is cut at the first parenthesis, the last and the first comma between them. -/
theorem codeBinding?_of_flatText {t : SyntaxTree} (hkind : t.kind = .pragma)
    (hlast : t.nameOrEmpty.last = "EXCEPTION_INIT") {front exception inner after : List Char}
    (htext : t.flatText.toList = front ++ '(' :: (exception ++ ',' :: (inner ++ ')' :: after)))
    (hfront : '(' ∉ front) (hexception : ',' ∉ exception) (hafter : ')' ∉ after) :
    codeBinding? t = some (.parse (Text.trim (String.ofList exception)),
      String.ofList (withoutBlanks inner)) := by
  have hargs : beforeLast? ')' (exception ++ ',' :: (inner ++ ')' :: after)) =
      some (exception ++ ',' :: inner) := by
    rw [← List.cons_append, ← List.append_assoc, beforeLast?_append hafter]
  have hnot : ¬ (t.kind ≠ .pragma ∨ t.nameOrEmpty.last ≠ "EXCEPTION_INIT") := by
    rintro (hother | hother)
    · exact hother hkind
    · exact hother hlast
  unfold codeBinding?
  rw [if_neg hnot, htext, splitFirst?_append hfront]
  simp only [Option.bind_eq_bind, Option.bind_some, hargs, splitFirst?_append hexception]
  rfl

/-- The significant tokens of a pragma that names an exception for a code. -/
theorem exists_of_exceptionInit? (h : p.tree.exceptionInit? = some (target, code)) :
    p.tree.kind = .pragma ∧ ∃ word name opening comma more,
      p.tree.keys = word :: name :: opening :: target :: comma :: more ∧
      word.kind.isWord = true ∧ name.kind.isWord = true ∧ name.value = "EXCEPTION_INIT" ∧
      opening.kind = .lparen ∧ target.kind.isName = true ∧ comma.kind = .comma ∧
      signedNumber? more = some code := by
  unfold SyntaxTree.exceptionInit? at h
  split at h
  · rename_i hkind
    split at h
    · rename_i word name opening found comma more hkeys
      split at h
      · rename_i hkinds
        obtain ⟨number, hnumber, heq⟩ := Option.map_eq_some_iff.1 h
        cases heq
        obtain ⟨hword, hname, hvalue, hopening, htarget, hcomma⟩ := hkinds
        exact ⟨hkind, word, name, opening, comma, more, hkeys, hword, hname, hvalue, hopening,
          htarget, hcomma, hnumber⟩
      · cases h
    · cases h
  · cases h

/-- The node of such a pragma is named for it. -/
theorem name_of_exceptionInit? (htree : tree ∈ (parseSql source filename).trees)
    (hp : p ∈ tree.placements) (h : p.tree.exceptionInit? = some (target, code)) :
    p.tree.nameOrEmpty.last = "EXCEPTION_INIT" := by
  obtain ⟨hkind, word, name, opening, comma, more, hkeys, -, -, hvalue, -⟩ :=
    exists_of_exceptionInit? h
  have hnamed := (parseTokens_labelled (lexSql source filename) tree htree).placements p hp
  rw [hkind] at hnamed
  have hsecond : (p.tree.groups.filterMap (·.key?))[1]? = some name := by
    rw [show p.tree.groups.filterMap (·.key?) = _ from hkeys]
    rfl
  obtain ⟨leading, hgroup⟩ := exists_group_of_keys (groups_infix_groupsOf htree hp) hsecond
  rw [SyntaxTree.nameOrEmpty, hnamed leading name hgroup]
  exact hvalue

/-- What a pragma binds is what its tokens say, if there is no comma in the name. -/
theorem codeBinding?_eq (htree : tree ∈ (parseSql source filename).trees)
    (hp : p ∈ tree.placements) (h : p.tree.exceptionInit? = some (target, code))
    (hcomma : ',' ∉ target.text.toList) :
    codeBinding? p.tree = some (⟨[target.value]⟩, code) := by
  have hlast := name_of_exceptionInit? htree hp h
  obtain ⟨hkind, word, name, opening, comma, more, hkeys, hword, hname, -, hopening, htarget,
    hmark, hnumber⟩ := exists_of_exceptionInit? h
  have hgroups := (groups_infix_groupsOf htree hp).subset
  have hmem : ∀ t ∈ p.tree.keys, t ∈ (lexSql source filename).tokens := by
    intro t ht
    obtain ⟨g, hg, hkey⟩ := List.mem_filterMap.1 ht
    cases g with
    | keyed leading key =>
      cases hkey
      exact (key_of_mem_groupsOf (hgroups hg)).2
    | trailing => cases hkey
  rw [hkeys] at hmem
  simp only [List.forall_mem_cons] at hmem
  obtain ⟨hwordMem, hnameMem, hopeningMem, htargetMem, hcommaMem, hmoreMem⟩ := hmem
  have htext := spaced_flatten hgroups false false
  rw [keyTexts, show p.tree.groups.filterMap (·.key?) = _ from hkeys] at htext
  have hflat : p.tree.flatText.toList =
      flatten false false (p.tree.groups.flatMap (·.tokens)) := String.toList_ofList
  rw [← hflat] at htext
  simp only [List.map_cons] at htext
  rw [lexSql_mark hopeningMem (by rw [hopening]; rfl), lexSql_mark hcommaMem (by rw [hmark]; rfl)]
    at htext
  obtain ⟨g₁, rest₁, htext₁, hrest₁⟩ := htext.exists_cons
  obtain ⟨g₂, rest₂, htext₂, hrest₂⟩ := hrest₁.exists_cons
  obtain ⟨g₃, rest₃, htext₃, hrest₃⟩ := hrest₂.exists_cons
  obtain ⟨g₄, rest₄, htext₄, hrest₄⟩ := hrest₃.exists_cons
  obtain ⟨g₅, rest₅, htext₅, hrest₅⟩ := hrest₄.exists_cons
  obtain ⟨inner, after, hinner, hafter, hcode⟩ := exists_of_signedNumber? hnumber hmoreMem hrest₅
  obtain ⟨hnameText, hvalue⟩ := lexSql_name htargetMem htarget
  have hparenthesis {t : SqlToken} (ht : t ∈ (lexSql source filename).tokens)
      (hword : t.kind.isWord = true) : '(' ∉ t.text.toList := by
    obtain ⟨_, _, -, -, hall⟩ := Sql.exists_of_describes_word (lexSql_describes_word ht hword)
    intro hmem
    exact absurd (hall '(' hmem) (by decide)
  have hsplit : p.tree.flatText.toList =
      (gap g₁ ++ (word.text.toList ++ (gap g₂ ++ (name.text.toList ++ gap g₃)))) ++
        '(' :: ((gap g₄ ++ (target.text.toList ++ gap g₅)) ++ ',' :: (inner ++ ')' :: after)) := by
    rw [htext₁, htext₂, htext₃, htext₄, htext₅, hinner]
    simp only [List.append_assoc, List.cons_append, List.nil_append]
  rw [codeBinding?_of_flatText hkind hlast hsplit ?_ ?_ hafter, hcode,
    parse_gap_append hnameText, hvalue, Name.partOf, String.ofList_toList]
  · simp only [List.mem_append, not_or]
    exact ⟨not_mem_gap (by decide) _, hparenthesis hwordMem hword, not_mem_gap (by decide) _,
      hparenthesis hnameMem hname, not_mem_gap (by decide) _⟩
  · simp only [List.mem_append, not_or]
    exact ⟨not_mem_gap (by decide) _, hcomma, not_mem_gap (by decide) _⟩

end

/-! ### Codes -/

/-- What the pragmas of a tree bind is what their tokens say. -/
theorem bindings_eq {source : String} {filename : Option String} {t : SyntaxTree}
    (ht : t ∈ (parseSql source filename).trees)
    (hinits : ∀ p ∈ t.children, p.kind = .pragma → p.nameOrEmpty.last = "EXCEPTION_INIT" →
      ∃ target code, p.exceptionInit? = some (target, code) ∧ ',' ∉ target.text.toList) :
    t.children.filterMap codeBinding? =
      (t.children.filterMap (·.exceptionInit?)).map fun init => (⟨[init.1.value]⟩, init.2) := by
  rw [List.map_filterMap]
  refine List.filterMap_congr fun p hp => ?_
  obtain ⟨q, hq, rfl⟩ := SyntaxTree.exists_placement_of_mem_children hp
  cases hinit : q.tree.exceptionInit? with
  | some init =>
    obtain ⟨target, code⟩ := init
    obtain ⟨_, _, hsame, hcomma⟩ := hinits _ hp (exists_of_exceptionInit? hinit).1
      (name_of_exceptionInit? ht hq hinit)
    rw [hinit] at hsame
    cases hsame
    exact codeBinding?_eq ht hq hinit hcomma
  | none =>
    unfold codeBinding?
    refine if_pos ?_
    by_contra hnot
    rw [not_or, not_not, not_not] at hnot
    obtain ⟨target, code, hsome, -⟩ := hinits _ hp hnot.1 hnot.2
    rw [hinit] at hsome
    cases hsome

theorem boundCodes_inits (t : SyntaxTree) (exception : String) :
    boundCodes ((t.children.filterMap (·.exceptionInit?)).map
      fun init => (⟨[init.1.value]⟩, init.2)) exception = t.initCodes exception := by
  rw [boundCodes, SyntaxTree.initCodes, List.filter_map, List.map_map]
  rfl

/-- Wherever the pragmas stand in a package, the first exception of a name has the codes of those
that name it, each once, in order. -/
theorem resolveAll_codes (source : String) (filename : Option String) (warnOrphans : Bool)
    {k : Nat} {t : SyntaxTree} (ht : (parseSql source filename).trees[k]? = some t)
    (hpackage : t.kind = .createUnit .package)
    (hinits : ∀ p ∈ t.children, p.kind = .pragma → p.nameOrEmpty.last = "EXCEPTION_INIT" →
      ∃ target code, p.exceptionInit? = some (target, code) ∧ ',' ∉ target.text.toList)
    {before after : List (Nat × SyntaxTree)} {node : Nat} {e : SyntaxTree}
    (hmembers : t.numberedChildren 0 = before ++ (node, e) :: after)
    (hexception : e.kind = .exceptionDecl)
    (hfirst : ∀ q ∈ before, q.2.kind = .exceptionDecl →
      q.2.nameOrEmpty.last ≠ e.nameOrEmpty.last) :
    let table := (resolveAll (parseSql source filename).trees warnOrphans).1
    ∃ number c, table.contextAt? k node = some number ∧ table.context? number = some c ∧
      c.kind = .exceptionDecl ∧ c.name = e.nameOrEmpty ∧
      c.codes? = some (t.initCodes e.nameOrEmpty.last) := by
  intro table
  have hfits := parseSql_fits source filename
  have hmem := List.mem_of_getElem? ht
  have hunit : endsUnit t.kind := by
    rw [hpackage]
    rfl
  obtain ⟨number, c, hnumber, hc, hkind, hname, hcodes⟩ :=
    (holds_resolveAll hfits warnOrphans ht).exists_exceptionContext (hfits t hmem) hunit hmembers
      hexception
  refine ⟨number, c, hnumber, hc, hkind, hname, ?_⟩
  rw [hcodes hfirst, bindings_eq hmem hinits, boundCodes_inits]

/-- An exception is named before it is declared and again after it, in other letters and in quotes,
and one code twice. -/
theorem resolveAll_codes_twice :
    let source := "CREATE PACKAGE p IS PRAGMA EXCEPTION_INIT(e, - 1); e EXCEPTION;\n" ++
      "PRAGMA EXCEPTION_INIT (\"E\" /* too */, 100); PRAGMA exception_init(E, -1); END;"
    let table := (resolveAll (parseSql source none).trees true).1
    ∃ node number c, table.contextAt? 0 node = some number ∧ table.context? number = some c ∧
      c.kind = .exceptionDecl ∧ c.name = ⟨["E"]⟩ ∧ c.codes? = some ["-1", "100"] := by
  intro source table
  have hfacts : (parseSql source none).trees.map (fun t =>
      (t.kind, (t.numberedChildren 0)[2]?.map (fun q => (q.2.kind, q.2.nameOrEmpty)),
        (t.children.all fun p => p.kind ≠ .pragma || p.exceptionInit?.any fun init =>
          !init.1.text.toList.contains ','),
        ((t.numberedChildren 0).take 2).all (fun q => q.2.kind ≠ .exceptionDecl),
        t.initCodes "E")) =
      [(.createUnit .package, some (.exceptionDecl, ⟨["E"]⟩), true, true, ["-1", "100"])] := by
    decide +kernel
  obtain ⟨t, htrees, hfacts⟩ := List.map_eq_singleton_iff.1 hfacts
  obtain ⟨hpackage, hfacts⟩ := Prod.mk.inj hfacts
  obtain ⟨hthird, hfacts⟩ := Prod.mk.inj hfacts
  obtain ⟨hall, hfacts⟩ := Prod.mk.inj hfacts
  obtain ⟨hbefore, hcodes⟩ := Prod.mk.inj hfacts
  obtain ⟨⟨node, e⟩, hmember, hexception⟩ := Option.map_eq_some_iff.1 hthird
  obtain ⟨hkind, hname⟩ := Prod.mk.inj hexception
  obtain ⟨hlt, heq⟩ := List.getElem?_eq_some_iff.1 hmember
  have hmembers : t.numberedChildren 0 =
      (t.numberedChildren 0).take 2 ++ (node, e) :: (t.numberedChildren 0).drop 3 := by
    rw [← heq, ← List.drop_eq_getElem_cons, List.take_append_drop]
  have ht : (parseSql source none).trees[0]? = some t := by
    rw [htrees]
    rfl
  have hinits : ∀ p ∈ t.children, p.kind = .pragma → p.nameOrEmpty.last = "EXCEPTION_INIT" →
      ∃ target code, p.exceptionInit? = some (target, code) ∧ ',' ∉ target.text.toList := by
    intro p hp hpragma _
    have hinit := List.all_eq_true.1 hall p hp
    rw [hpragma] at hinit
    obtain ⟨⟨target, code⟩, hsome, hcomma⟩ := (Option.any_eq_true ..).1 hinit
    exact ⟨target, code, hsome, by simpa using hcomma⟩
  obtain ⟨number, c, hnumber, hc, hckind, hcname, hccodes⟩ :=
    resolveAll_codes source none true ht hpackage hinits hmembers hkind fun q hq hdeclared =>
      absurd hdeclared (of_decide_eq_true (List.all_eq_true.1 hbefore q hq))
  have hlast : e.nameOrEmpty.last = "E" := by
    rw [hname]
    rfl
  rw [hlast, hcodes] at hccodes
  exact ⟨node, number, c, hnumber, hc, hckind, hcname.trans hname, hccodes⟩

/-- In the name of an exception the first comma is taken for the one before the code. -/
theorem resolveAll_codes_comma :
    let source := "CREATE PACKAGE p IS \"A,B\" EXCEPTION; PRAGMA EXCEPTION_INIT(\"A,B\", -20001); END;"
    let table := (resolveAll (parseSql source none).trees true).1
    (parseSql source none).trees.map (fun t => (t.kind, t.initCodes "A,B")) =
        [(.createUnit .package, ["-20001"])] ∧
      (table.context? 1).map (fun c => (c.kind, c.name, c.codes?)) =
        some (.exceptionDecl, ⟨["A,B"]⟩, some []) := by
  decide +kernel

end SqlDoc

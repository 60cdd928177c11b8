/-
# A buffered stream of groups

The grammar of statements reads groups, and looks ahead before it takes one. The stream puts groups
into a window as they are asked for, and no earlier: an error that ends the tokens is noticed only
when the window has to be filled past the last group before it.

Key definitions: `readGroup`, `groupsOf`, `TokenStream`, `TokenStream.peek`, `TokenStream.next`,
`TokenStream.allGroups`.
Key theorems: `readGroup_shorter`, `tokens_groupsAfter`, `TokenStream.allGroups_fill`.
-/
import SqlDoc.Sql.Lex

namespace SqlDoc

/-- The first group of a list of tokens, after the trivia in `leading`, and the tokens after it. -/
def readGroup (leading : List SqlToken) : List SqlToken → Option SqlGroup × List SqlToken
  | [] =>
    match leading with
    | [] => (none, [])
    | first :: rest => (some (.trailing first rest), [])
  | t :: tokens =>
    if t.isSignificant then (some (.keyed leading t), tokens)
    else readGroup (leading ++ [t]) tokens

theorem readGroup_shorter (leading : List SqlToken) {tokens : List SqlToken} (h : tokens ≠ []) :
    (readGroup leading tokens).2.length < tokens.length := by
  induction tokens generalizing leading with
  | nil => exact absurd rfl h
  | cons t tokens ih =>
    rw [readGroup]
    split
    · simp
    · cases tokens with
      | nil =>
        simp [readGroup]
        split <;> simp
      | cons u more =>
        exact Nat.lt_trans (ih (leading ++ [t]) (by simp)) (by simp)

/-- The groups of a list of tokens, after the trivia in `leading`: runs of trivia, each with the
significant token after it, and a last run that has none. -/
def groupsAfter (leading : List SqlToken) : List SqlToken → List SqlGroup
  | [] =>
    match leading with
    | [] => []
    | first :: rest => [.trailing first rest]
  | t :: tokens =>
    if t.isSignificant then .keyed leading t :: groupsAfter [] tokens
    else groupsAfter (leading ++ [t]) tokens

/-- The groups of a list of tokens. -/
def groupsOf (tokens : List SqlToken) : List SqlGroup :=
  groupsAfter [] tokens

/-- The groups hold every token, in order. -/
theorem tokens_groupsAfter (leading tokens : List SqlToken) :
    (groupsAfter leading tokens).flatMap (·.tokens) = leading ++ tokens := by
  fun_induction groupsAfter leading tokens with
  | case1 => rfl
  | case2 first rest => simp
  | case3 leading t tokens _ ih => simp [ih]
  | case4 leading t tokens _ ih => simp [ih]

theorem groupsAfter_of_readGroup {leading tokens rest : List SqlToken} {group : SqlGroup}
    (h : readGroup leading tokens = (some group, rest)) :
    groupsAfter leading tokens = group :: groupsOf rest := by
  induction tokens generalizing leading with
  | nil => cases leading <;> cases h; rfl
  | cons t tokens ih =>
    rw [readGroup] at h
    rw [groupsAfter]
    by_cases hs : t.isSignificant = true
    · rw [if_pos hs] at h ⊢
      cases h
      rfl
    · rw [if_neg hs] at h ⊢
      exact ih h

theorem rest_of_trailing {leading tokens rest : List SqlToken} {group : SqlGroup}
    (h : readGroup leading tokens = (some group, rest)) (hkey : group.key? = none) : rest = [] := by
  induction tokens generalizing leading with
  | nil => cases leading <;> cases h; rfl
  | cons t tokens ih =>
    rw [readGroup] at h
    split at h
    · cases h
      cases hkey
    · exact ih h

theorem readGroup_ne_none {leading tokens : List SqlToken} (h : leading ++ tokens ≠ []) :
    (readGroup leading tokens).1 ≠ none := by
  induction tokens generalizing leading with
  | nil => cases leading <;> simp_all [readGroup]
  | cons t tokens ih =>
    rw [readGroup]
    split
    · simp
    · exact ih (by simp)

/-- A stream of groups: those in the window, the tokens after them, and what ends the tokens. -/
structure TokenStream where
  window : List SqlGroup
  unread : List SqlToken
  /-- The error after the last token, until it is noticed. -/
  pending : Option LexError
  /-- The error, once it has been noticed and until it is taken. -/
  error : Option LexError
  /-- The end of the tokens has been noticed. -/
  exhausted : Bool
  deriving DecidableEq, Repr

namespace TokenStream

/-- A stream whose window is empty. -/
def ofLexed (lexed : Lexed) : TokenStream where
  window := []
  unread := lexed.tokens
  pending := lexed.error
  error := none
  exhausted := false

/-- Notices the end of the tokens, after the last groups. -/
def finish (s : TokenStream) (last : List SqlGroup) : TokenStream where
  window := s.window ++ last
  unread := []
  pending := none
  error := s.pending
  exhausted := true

/-- Fills the window until it has a group at index `n` or the tokens end. -/
def fill (n : Nat) (s : TokenStream) : TokenStream :=
  if s.exhausted || n < s.window.length then s
  else
    match _h : s.unread with
    | [] => s.finish []
    | _ :: _ =>
      match _hr : readGroup [] s.unread with
      | (some (.keyed leading key), rest) =>
        fill n { s with window := s.window ++ [.keyed leading key], unread := rest }
      | (some group, _) => s.finish [group]
      | (none, _) => s.finish []
termination_by s.unread.length
decreasing_by
  have := @readGroup_shorter [] s.unread (by simp [_h])
  rwa [_hr] at this

/-- The group at index `n` of those ahead, and the stream with the window filled. -/
def peek (n : Nat) (s : TokenStream) : Option SqlGroup × TokenStream :=
  let s := s.fill n
  (s.window[n]?, s)

/-- The significant token at index `n` of those ahead. -/
def peekKey (n : Nat) (s : TokenStream) : Option SqlToken × TokenStream :=
  let (group, s) := s.peek n
  (group.bind (·.key?), s)

/-- Takes the next group. -/
def next (s : TokenStream) : Option SqlGroup × TokenStream :=
  let s := s.fill 0
  match s.window with
  | [] => (none, s)
  | group :: window => (some group, { s with window })

/-- No significant token is left. -/
def atEnd (s : TokenStream) : Bool × TokenStream :=
  let (key, s) := s.peekKey 0
  (key.isNone, s)

/-- How many groups the window holds. -/
def buffered (s : TokenStream) : Nat :=
  s.window.length

/-- The error that ends the tokens, once it has been noticed; it is given only once. -/
def takeError (s : TokenStream) : Option LexError × TokenStream :=
  (s.error, { s with error := none })

/-- How many significant tokens are left. -/
def remaining (s : TokenStream) : Nat :=
  s.window.countP (·.key?.isSome) + s.unread.countP (·.isSignificant)

/-- Every group that is left, in the window or not. -/
def allGroups (s : TokenStream) : List SqlGroup :=
  s.window ++ groupsOf s.unread

/-- Filling the window does not change which groups are left. -/
theorem allGroups_fill (n : Nat) (s : TokenStream) (h : s.exhausted = true → s.unread = []) :
    (s.fill n).allGroups = s.allGroups ∧
      ((s.fill n).exhausted = true → (s.fill n).unread = []) := by
  fun_induction fill n s with
  | case1 => exact ⟨rfl, h⟩
  | case2 s _ hu => exact ⟨by simp [allGroups, finish, hu], fun _ => rfl⟩
  | case3 s hc _ _ _ leading key rest hr ih =>
    have hex : s.exhausted = false := by
      cases he : s.exhausted <;> simp_all
    refine ⟨?_, (ih fun he => absurd he (by simp [hex])).2⟩
    rw [(ih fun he => absurd he (by simp [hex])).1]
    simp [allGroups, groupsOf, groupsAfter_of_readGroup hr]
  | case4 s _ _ _ _ group rest hg hr =>
    have hkey : group.key? = none := by
      cases group with
      | keyed leading key => exact (hg leading key rfl).elim
      | trailing => rfl
    have hrest := rest_of_trailing hr hkey
    refine ⟨?_, fun _ => rfl⟩
    simp [allGroups, finish, groupsOf, groupsAfter_of_readGroup hr, hrest]
  | case5 s _ _ _ hu _ hr =>
    have := @readGroup_ne_none [] s.unread (by simp [hu])
    exact absurd (by rw [hr]) this

end TokenStream
end SqlDoc
